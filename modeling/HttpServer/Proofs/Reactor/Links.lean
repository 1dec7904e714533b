import HttpServer.Proofs.Time.Consistency
import HttpServer.Reactor.Run

/-!
# Views of a reactor

A reactor is looked at through four views: which connections are open, which descriptor each of them
was given, which connection the table has for a descriptor, and which timer is found for an id.
Setting a connection's state, adding a connection, and putting an entry into the table or the timers
or taking one out change a view at one place, if at all, and `Function.update` says how.
-/

namespace HttpServer

namespace Reactor

/-- A connection is open. -/
def isOpen (r : Reactor) (id : Nat) : Bool :=
  match r.link? id with
  | some l => !l.connection.closed
  | none => false

/-- The descriptor that a connection was given. -/
def descriptor? (r : Reactor) (id : Nat) : Option Int :=
  (r.link? id).map Link.descriptor

variable {r q : Reactor} {id : Nat} {l : Link}

theorem isOpen_eq (h : r.link? id = some l) : r.isOpen id = !l.connection.closed := by
  rw [isOpen, h]

theorem descriptor?_eq (h : r.link? id = some l) : r.descriptor? id = some l.descriptor := by
  rw [descriptor?, h]
  rfl

theorem isOpen_eq_true_iff :
    r.isOpen id = true ↔ ∃ l, r.link? id = some l ∧ l.connection.closed = false := by
  cases h : r.link? id with
  | none => simp [isOpen, h]
  | some l => simp [isOpen, h]

theorem isOpen_eq_false_of_none (h : r.link? id = none) : r.isOpen id = false := by
  rw [isOpen, h]

theorem descriptor?_eq_some_iff {d : Int} :
    r.descriptor? id = some d ↔ ∃ l, r.link? id = some l ∧ l.descriptor = d :=
  Option.map_eq_some_iff

theorem lt_length_of_isOpen (h : r.isOpen id = true) : id < r.links.length := by
  obtain ⟨l, hl, -⟩ := isOpen_eq_true_iff.1 h
  exact (List.getElem?_eq_some_iff.1 hl).1

/-- Shutting what is not open. -/
theorem update_isOpen_eq_self (h : r.isOpen id = false) :
    Function.update r.isOpen id false = r.isOpen := by
  rw [← h, Function.update_eq_self]

theorem exists_descriptor?_of_isOpen (h : r.isOpen id = true) : ∃ d, r.descriptor? id = some d := by
  obtain ⟨l, hl, -⟩ := isOpen_eq_true_iff.1 h
  exact ⟨l.descriptor, descriptor?_eq hl⟩

theorem isOpen_of_links_eq (h : q.links = r.links) : q.isOpen = r.isOpen := by
  funext id
  rw [isOpen, isOpen, link?, link?, h]

theorem descriptor?_of_links_eq (h : q.links = r.links) : q.descriptor? = r.descriptor? := by
  funext id
  rw [descriptor?, descriptor?, link?, link?, h]

/-- What is open after a connection was shut is another one, and was open before. -/
theorem isOpen_of_shut (h : q.isOpen = Function.update r.isOpen id false) {x : Nat}
    (hx : q.isOpen x = true) : x ≠ id ∧ r.isOpen x = true := by
  have hne : x ≠ id := by
    rintro rfl
    rw [h, Function.update_self] at hx
    cases hx
  rw [h, Function.update_of_ne hne] at hx
  exact ⟨hne, hx⟩

/-- The next connection is a new one. -/
theorem link?_length (r : Reactor) : r.link? r.links.length = none :=
  List.getElem?_eq_none (Nat.le_refl _)

theorem ne_length_of_descriptor? {d : Int} (h : r.descriptor? id = some d) :
    id ≠ r.links.length := by
  rintro rfl
  rw [descriptor?, link?_length] at h
  cases h

theorem holds_eq_false_iff {d : Int} :
    r.holds d = false ↔ ∀ id, r.isOpen id = true → r.descriptor? id ≠ some d := by
  rw [holds, List.any_eq_false]
  constructor
  · intro h id hopen hd
    obtain ⟨l, hl, hc⟩ := isOpen_eq_true_iff.1 hopen
    rw [descriptor?_eq hl] at hd
    apply h l (List.mem_of_getElem? hl)
    rw [hc, Option.some.inj hd]
    simp
  · intro h l hl
    obtain ⟨id, hid⟩ := List.mem_iff_getElem?.1 hl
    intro hboth
    rw [Bool.and_eq_true, Bool.not_eq_true', beq_iff_eq] at hboth
    apply h id (isOpen_eq_true_iff.2 ⟨l, hid, hboth.1⟩)
    rw [descriptor?_eq hid, hboth.2]

section Append

/-- A connection is added behind the others. -/
theorem link?_append {l : Link} (h : q.links = r.links ++ [l]) :
    q.link? = Function.update r.link? r.links.length (some l) := by
  funext x
  rw [link?, h]
  by_cases hx : x = r.links.length
  · rw [hx, Function.update_self]
    exact List.getElem?_concat_length
  · rw [Function.update_of_ne hx]
    rcases Nat.lt_or_gt_of_ne hx with hlt | hgt
    · exact List.getElem?_append_left hlt
    · rw [link?, List.getElem?_eq_none (Nat.le_of_lt hgt), List.getElem?_eq_none]
      rw [List.length_append]
      exact hgt

theorem isOpen_append {l : Link} (h : q.links = r.links ++ [l]) :
    q.isOpen = Function.update r.isOpen r.links.length (!l.connection.closed) := by
  funext x
  rw [isOpen, link?_append h]
  by_cases hx : x = r.links.length
  · rw [hx, Function.update_self, Function.update_self]
  · rw [Function.update_of_ne hx, Function.update_of_ne hx]
    rfl

theorem descriptor?_append {l : Link} (h : q.links = r.links ++ [l]) :
    q.descriptor? = Function.update r.descriptor? r.links.length (some l.descriptor) := by
  funext x
  rw [descriptor?, link?_append h]
  by_cases hx : x = r.links.length
  · rw [hx, Function.update_self, Function.update_self]
    rfl
  · rw [Function.update_of_ne hx, Function.update_of_ne hx]
    rfl

end Append

section Update

theorem link?_update (h : r.link? id = some l) (c : Connection) (stats : Stats) :
    (r.update id l c stats).link? =
      Function.update r.link? id (some { l with connection := c }) := by
  have hlt : id < r.links.length := (List.getElem?_eq_some_iff.1 h).1
  funext x
  by_cases hx : x = id
  · rw [hx, Function.update_self]
    exact List.getElem?_set_self hlt
  · rw [Function.update_of_ne hx]
    exact List.getElem?_set_ne (Ne.symm hx)

theorem isOpen_update (h : r.link? id = some l) (c : Connection) (stats : Stats) :
    (r.update id l c stats).isOpen = Function.update r.isOpen id (!c.closed) := by
  funext x
  rw [isOpen, link?_update h]
  by_cases hx : x = id
  · rw [hx, Function.update_self, Function.update_self]
  · rw [Function.update_of_ne hx, Function.update_of_ne hx]
    rfl

theorem descriptor?_update (h : r.link? id = some l) (c : Connection) (stats : Stats) :
    (r.update id l c stats).descriptor? = r.descriptor? := by
  funext x
  rw [descriptor?, link?_update h]
  by_cases hx : x = id
  · rw [hx, Function.update_self, descriptor?_eq h]
    rfl
  · rw [Function.update_of_ne hx]
    rfl

/-- Setting what is there already. -/
theorem update_self (h : r.link? id = some l) : r.update id l l.connection r.stats = r := by
  obtain ⟨hlt, hl⟩ := List.getElem?_eq_some_iff.1 h
  have hset : r.links.set id l = r.links := by
    rw [← hl]
    exact List.set_getElem_self hlt
  rw [update]
  exact congrArg (fun links => { r with links := links }) hset

end Update

section Table

theorem occupant?_of_table_eq (h : q.table = r.table) : q.occupant? = r.occupant? := by
  funext d
  rw [occupant?, occupant?, h]

theorem mem_of_occupant? {d : Int} (h : r.occupant? d = some id) : (d, id) ∈ r.table := by
  obtain ⟨row, hrow, rfl⟩ := Option.map_eq_some_iff.1 h
  have hd : row.1 = d := by
    have hbeq := List.find?_some hrow
    simpa using hbeq
  rw [← hd]
  exact List.mem_of_find?_eq_some hrow

/-- Where no descriptor has two rows, the table has for a descriptor what its row says. -/
theorem occupant?_eq_some_iff (h : (r.table.map Prod.fst).Nodup) {d : Int} :
    r.occupant? d = some id ↔ (d, id) ∈ r.table := by
  refine ⟨mem_of_occupant?, ?_⟩
  rw [occupant?]
  revert h
  induction r.table with
  | nil =>
      intro _ hmem
      cases hmem
  | cons row rows ih =>
      intro h hmem
      rw [List.map_cons, List.nodup_cons] at h
      rcases List.mem_cons.1 hmem with rfl | hmem
      · rw [List.find?_cons_of_pos (by simp)]
        rfl
      · have hne : row.1 ≠ d := by
          rintro rfl
          exact h.1 (List.mem_map.2 ⟨_, hmem, rfl⟩)
        rw [List.find?_cons_of_neg (by simpa using hne)]
        exact ih h.2 hmem

theorem occupant?_seat_eq (r : Reactor) (d : Int) (id : Nat) :
    (r.seat d id).occupant? = Function.update r.occupant? d (some id) := by
  funext x
  rw [occupant?_seat, Function.update_apply]

theorem occupant?_filter (r : Reactor) (d : Int) :
    ({ r with table := r.table.filter fun row => row.1 != d } : Reactor).occupant? =
      Function.update r.occupant? d none := by
  funext x
  by_cases hx : x = d
  · rw [hx, Function.update_self, occupant?, List.find?_eq_none.2, Option.map_none]
    intro row hrow
    simpa using (List.mem_filter.1 hrow).2
  · rw [Function.update_of_ne hx, occupant?, occupant?, List.find?_filter]
    congr 2
    funext row
    by_cases hr : row.1 = x
    · simp [hr, hx]
    · simp [hr]

theorem occupant?_forget (r : Reactor) (id : Nat) (d : Int) :
    (r.forget id d).occupant? =
      if r.occupant? d = some id then Function.update r.occupant? d none else r.occupant? := by
  rw [forget]
  split
  · exact occupant?_filter r d
  · rfl

/-- What stays in the table stood there before, and is not what was to be forgotten. -/
theorem occupant?_forget_eq_some_iff {d x : Int} {y : Nat} :
    (r.forget id d).occupant? x = some y ↔
      r.occupant? x = some y ∧ ¬(x = d ∧ y = id) := by
  rw [occupant?_forget]
  by_cases hx : x = d
  · subst hx
    split
    · rename_i h
      rw [Function.update_self, h]
      constructor
      · intro hnone
        cases hnone
      · rintro ⟨hsome, hne⟩
        exact absurd ⟨rfl, (Option.some.inj hsome).symm⟩ hne
    · rename_i h
      refine ⟨fun hy => ⟨hy, ?_⟩, And.left⟩
      rintro ⟨-, rfl⟩
      exact h hy
  · have hne : ¬(x = d ∧ y = id) := fun h => hx h.1
    rw [and_iff_left hne]
    split
    · rw [Function.update_of_ne hx]
    · rfl

theorem nodup_rows_seat (h : (r.table.map Prod.fst).Nodup) (d : Int) (id : Nat) :
    ((r.seat d id).table.map Prod.fst).Nodup := by
  rw [seat, List.map_cons, List.nodup_cons]
  refine ⟨?_, h.sublist (List.filter_sublist.map _)⟩
  intro hmem
  obtain ⟨row, hrow, rfl⟩ := List.mem_map.1 hmem
  simpa using (List.mem_filter.1 hrow).2

theorem nodup_rows_forget (h : (r.table.map Prod.fst).Nodup) (id : Nat) (d : Int) :
    ((r.forget id d).table.map Prod.fst).Nodup := by
  rw [forget]
  split
  · exact h.sublist (List.filter_sublist.map _)
  · exact h

/-- Forgetting touches the table only. -/
theorem forget_eq (r : Reactor) (id : Nat) (d : Int) :
    r.forget id d = { r with table := (r.forget id d).table } := by
  rw [forget]
  split <;> rfl

end Table

section Timers

/-- Dropping the timer for an id. -/
theorem dropTimer_find? (h : r.timers.Consistent) (id : Nat) :
    (r.dropTimer id).timers.Consistent ∧
      (r.dropTimer id).timers.find? = Function.update r.timers.find? id none := by
  rw [dropTimer, TimerHeap.remove]
  rcases h.take?_cases id with ⟨n, s, -, hs, hconsistent, hfind⟩ | ⟨hnone, hs⟩
  · rw [hs]
    exact ⟨hconsistent, hfind⟩
  · rw [hs]
    refine ⟨h, ?_⟩
    rw [← hnone, Function.update_eq_self]

theorem popDue?_find? {t s : TimerHeap Nat} {now : Nat} {n : Timer Nat} (h : t.Consistent)
    (hpop : t.popDue? now = some (n, s)) :
    n.deadline ≤ now ∧ t.find? n.id = some n ∧ s.Consistent ∧
      s.find? = Function.update t.find? n.id none := by
  rw [TimerHeap.popDue?] at hpop
  split at hpop
  · cases hpop
  · rename_i root hroot
    split at hpop
    · cases hpop
    · rename_i hdue
      obtain ⟨rest, hrest, hconsistent, hperm⟩ := h.removeAt? hroot
      rw [hrest] at hpop
      cases hpop
      have hfind : t.find? n.id = some n :=
        h.indexed.find?_eq_some_iff.2 ⟨TimerHeap.mem_nodes_iff.2 ⟨0, hroot⟩, rfl⟩
      exact ⟨Nat.not_lt.1 hdue, hfind, hconsistent,
        TimerHeap.find?_of_perm_cons h.indexed hconsistent.indexed hperm⟩

theorem size_of_popDue? {t s : TimerHeap Nat} {now : Nat} {n : Timer Nat}
    (hpop : t.popDue? now = some (n, s)) : s.size < t.size := by
  rw [TimerHeap.popDue?] at hpop
  split at hpop
  · cases hpop
  · split at hpop
    · cases hpop
    · rw [← TimerHeap.size_removeAt? hpop]
      exact Nat.lt_succ_self _

end Timers

end Reactor

end HttpServer
