import HttpServer.Proofs.Reactor.Operations

/-!
# The table, the timers and the notices

Whoever closes a connection puts only part of the books in order. What is left over in the table or
among the timers has a notice, which the reactor has still to read. `Kept` is what holds between any
two steps: an open connection stands in the table under its own descriptor and has its timer, and
whatever belongs to a closed one has its notice. So where no notice is left, the books show the open
connections and nothing else; and a notice that comes late, when its descriptor belongs to another
connection, leaves that one alone, since every notice speaks of a connection that is closed.
-/

namespace HttpServer

namespace Reactor

/-- Every entry of the books belongs to an open connection, or has a notice. -/
structure Kept (r : Reactor) : Prop where
  nodup_rows : (r.table.map Prod.fst).Nodup
  consistent : r.timers.Consistent
  row : ∀ d id, r.occupant? d = some id →
    r.descriptor? id = some d ∧ (r.isOpen id = false → ⟨id, d⟩ ∈ r.notices)
  timer : ∀ id n, r.timers.find? id = some n →
    n.action = id ∧ ∃ d, r.descriptor? id = some d ∧ (r.isOpen id = false → ⟨id, d⟩ ∈ r.notices)
  seated : ∀ id d, r.isOpen id = true → r.descriptor? id = some d → r.occupant? d = some id
  timed : ∀ id, r.isOpen id = true →
    (r.timers.find? id).isSome = r.settings.idleTimeout.isSome
  untimed : r.settings.idleTimeout = none → ∀ id, r.timers.find? id = none
  notice : ∀ n ∈ r.notices, r.isOpen n.id = false ∧ r.descriptor? n.id = some n.descriptor

theorem kept_fresh (settings : ReactorSettings) : (fresh settings).Kept := by
  refine ⟨List.nodup_nil, TimerHeap.consistent_empty, ?_, ?_, ?_, ?_, ?_, ?_⟩
  · intro d id h
    cases h
  · intro id n h
    rw [fresh, TimerHeap.find?_empty] at h
    cases h
  · intro id d h
    cases h
  · intro id h
    cases h
  · exact fun _ => TimerHeap.find?_empty
  · intro n h
    cases h

namespace Kept

variable {r q : Reactor} {id : Nat} {d : Int}

/-- Two reactors with the same books. -/
theorem congr (h : r.Kept) (hsettings : q.settings = r.settings) (htable : q.table = r.table)
    (htimers : q.timers = r.timers) (hnotices : q.notices = r.notices)
    (hopen : q.isOpen = r.isOpen) (hdescriptor : q.descriptor? = r.descriptor?) : q.Kept := by
  have hoccupant := occupant?_of_table_eq htable
  refine ⟨htable ▸ h.nodup_rows, htimers ▸ h.consistent, ?_, ?_, ?_, ?_, ?_, ?_⟩
  · rw [hoccupant, hopen, hdescriptor, hnotices]
    exact h.row
  · rw [htimers, hopen, hdescriptor, hnotices]
    exact h.timer
  · rw [hoccupant, hopen, hdescriptor]
    exact h.seated
  · rw [htimers, hopen, hsettings]
    exact h.timed
  · rw [htimers, hsettings]
    exact h.untimed
  · rw [hopen, hdescriptor, hnotices]
    exact h.notice

/-- A connection is closed, and a notice is left of it. Its timer may be gone. -/
theorem shut (h : r.Kept) (hsettings : q.settings = r.settings) (htable : q.table = r.table)
    (hconsistent : q.timers.Consistent)
    (htimers : q.timers.find? = r.timers.find? ∨
      q.timers.find? = Function.update r.timers.find? id none)
    (hopen : q.isOpen = Function.update r.isOpen id false)
    (hdescriptor : q.descriptor? = r.descriptor?) (hd : r.descriptor? id = some d)
    (hnotices : q.notices = r.notices ++ [⟨id, d⟩]) : q.Kept := by
  have hoccupant := occupant?_of_table_eq htable
  -- what is found now was found before, and only the closed one may have lost its timer
  have hfound (x : Nat) (n : Timer Nat) (hn : q.timers.find? x = some n) :
      r.timers.find? x = some n := by
    rcases htimers with ht | ht
    · rw [← ht, hn]
    · by_cases hx : x = id
      · rw [ht, hx, Function.update_self] at hn
        cases hn
      · rw [ht, Function.update_of_ne hx] at hn
        exact hn
  have hother (x : Nat) (hx : x ≠ id) : q.timers.find? x = r.timers.find? x := by
    rcases htimers with ht | ht
    · rw [ht]
    · rw [ht, Function.update_of_ne hx]
  have hnotice (x : Nat) (y : Int) (hy : r.descriptor? x = some y)
      (hbefore : r.isOpen x = false → (⟨x, y⟩ : ClosedNotice) ∈ r.notices)
      (hclosed : q.isOpen x = false) : (⟨x, y⟩ : ClosedNotice) ∈ q.notices := by
    rw [hnotices]
    by_cases hx : x = id
    · rw [hx, hd] at hy
      rw [hx, Option.some.inj hy]
      exact List.mem_append_right _ (List.mem_singleton_self _)
    · rw [hopen, Function.update_of_ne hx] at hclosed
      exact List.mem_append_left _ (hbefore hclosed)
  refine ⟨htable ▸ h.nodup_rows, hconsistent, ?_, ?_, ?_, ?_, ?_, ?_⟩
  · intro y x hx
    rw [hoccupant] at hx
    obtain ⟨hy, hbefore⟩ := h.row y x hx
    exact ⟨hdescriptor ▸ hy, hnotice x y hy hbefore⟩
  · intro x n hn
    obtain ⟨haction, y, hy, hbefore⟩ := h.timer x n (hfound x n hn)
    exact ⟨haction, y, hdescriptor ▸ hy, hnotice x y hy hbefore⟩
  · intro x y hx hy
    rw [hoccupant]
    exact h.seated x y (isOpen_of_shut hopen hx).2 (hdescriptor ▸ hy)
  · intro x hx
    obtain ⟨hne, hx⟩ := isOpen_of_shut hopen hx
    rw [hother x hne, hsettings]
    exact h.timed x hx
  · intro hnone x
    rw [Option.eq_none_iff_forall_ne_some]
    intro n hn
    have hbefore := hfound x n hn
    rw [h.untimed (hsettings ▸ hnone) x] at hbefore
    cases hbefore
  · intro n hn
    rw [hnotices] at hn
    rcases List.mem_append.1 hn with hn | hn
    · obtain ⟨hclosed, hy⟩ := h.notice n hn
      refine ⟨?_, hdescriptor ▸ hy⟩
      rw [hopen]
      by_cases hx : n.id = id
      · rw [hx, Function.update_self]
      · rw [Function.update_of_ne hx, hclosed]
    · rw [List.mem_singleton.1 hn, hopen, hdescriptor]
      exact ⟨Function.update_self _ _ _, hd⟩

/-- A connection is made, and stands in the books at once. -/
theorem add (h : r.Kept) (hsettings : q.settings = r.settings)
    (hrows : (q.table.map Prod.fst).Nodup)
    (hoccupant : q.occupant? = Function.update r.occupant? d (some r.links.length))
    (hconsistent : q.timers.Consistent)
    (htimers : (r.settings.idleTimeout = none ∧ q.timers.find? = r.timers.find?) ∨
      (r.settings.idleTimeout.isSome = true ∧ ∃ t, q.timers.find? =
        Function.update r.timers.find? r.links.length
          (some ⟨r.links.length, t, r.links.length⟩)))
    (hopen : q.isOpen = Function.update r.isOpen r.links.length true)
    (hdescriptor : q.descriptor? = Function.update r.descriptor? r.links.length (some d))
    (hfree : r.holds d = false) (hnotices : q.notices = r.notices) : q.Kept := by
  have hfree := holds_eq_false_iff.1 hfree
  -- whatever was given a descriptor before is another connection
  have hold (x : Nat) (y : Int) (hy : r.descriptor? x = some y) :
      q.descriptor? x = some y ∧ q.isOpen x = r.isOpen x := by
    have hne := ne_length_of_descriptor? hy
    rw [hdescriptor, hopen, Function.update_of_ne hne, Function.update_of_ne hne]
    exact ⟨hy, rfl⟩
  refine ⟨hrows, hconsistent, ?_, ?_, ?_, ?_, ?_, ?_⟩
  · intro y x hx
    rw [hoccupant] at hx
    by_cases hy : y = d
    · rw [hy, Function.update_self] at hx
      rw [← Option.some.inj hx, hy, hdescriptor, hopen, Function.update_self,
        Function.update_self]
      refine ⟨rfl, ?_⟩
      intro hfalse
      cases hfalse
    · rw [Function.update_of_ne hy] at hx
      obtain ⟨hyx, hbefore⟩ := h.row y x hx
      obtain ⟨hyx', hsame⟩ := hold x y hyx
      rw [hsame, hnotices]
      exact ⟨hyx', hbefore⟩
  · intro x n hn
    have hcases : r.timers.find? x = some n ∨
        (x = r.links.length ∧ n.action = r.links.length) := by
      rcases htimers with ⟨-, ht⟩ | ⟨-, t, ht⟩
      · exact Or.inl (ht ▸ hn)
      · by_cases hx : x = r.links.length
        · rw [ht, hx, Function.update_self] at hn
          cases hn
          exact Or.inr ⟨hx, rfl⟩
        · rw [ht, Function.update_of_ne hx] at hn
          exact Or.inl hn
    rcases hcases with hbefore | ⟨rfl, haction⟩
    · obtain ⟨haction, y, hy, hnotice⟩ := h.timer x n hbefore
      obtain ⟨hy', hsame⟩ := hold x y hy
      refine ⟨haction, y, hy', ?_⟩
      rw [hsame, hnotices]
      exact hnotice
    · refine ⟨haction, d, ?_, ?_⟩
      · rw [hdescriptor, Function.update_self]
      · rw [hopen, Function.update_self]
        intro hfalse
        cases hfalse
  · intro x y hx hy
    rw [hoccupant]
    by_cases hxn : x = r.links.length
    · rw [hxn, hdescriptor, Function.update_self] at hy
      rw [← Option.some.inj hy, Function.update_self, hxn]
    · rw [hopen, Function.update_of_ne hxn] at hx
      rw [hdescriptor, Function.update_of_ne hxn] at hy
      have hyd : y ≠ d := fun hyd => hfree x hx (hyd ▸ hy)
      rw [Function.update_of_ne hyd]
      exact h.seated x y hx hy
  · intro x hx
    rw [hsettings]
    by_cases hxn : x = r.links.length
    · rcases htimers with ⟨hnone, ht⟩ | ⟨hsome, t, ht⟩
      · rw [ht, h.untimed hnone, hnone]
        rfl
      · rw [ht, hxn, Function.update_self, hsome]
        rfl
    · rw [hopen, Function.update_of_ne hxn] at hx
      rw [← h.timed x hx]
      rcases htimers with ⟨-, ht⟩ | ⟨-, t, ht⟩
      · rw [ht]
      · rw [ht, Function.update_of_ne hxn]
  · intro hnone x
    rw [hsettings] at hnone
    rcases htimers with ⟨-, ht⟩ | ⟨hsome, -, -⟩
    · rw [ht]
      exact h.untimed hnone x
    · rw [hnone] at hsome
      cases hsome
  · intro n hn
    rw [hnotices] at hn
    obtain ⟨hclosed, hy⟩ := h.notice n hn
    obtain ⟨hy', hsame⟩ := hold n.id n.descriptor hy
    exact ⟨hsame.trans hclosed, hy'⟩

/-- A connection is made that is not watched, and closed at once. -/
theorem addClosed (h : r.Kept) (hsettings : q.settings = r.settings) (htable : q.table = r.table)
    (htimers : q.timers = r.timers) (hnotices : q.notices = r.notices)
    (hopen : q.isOpen = r.isOpen)
    (hdescriptor : q.descriptor? = Function.update r.descriptor? r.links.length (some d)) :
    q.Kept := by
  have hoccupant := occupant?_of_table_eq htable
  have hold (x : Nat) (y : Int) (hy : r.descriptor? x = some y) : q.descriptor? x = some y := by
    rw [hdescriptor, Function.update_of_ne (ne_length_of_descriptor? hy)]
    exact hy
  refine ⟨htable ▸ h.nodup_rows, htimers ▸ h.consistent, ?_, ?_, ?_, ?_, ?_, ?_⟩
  · rw [hoccupant, hopen, hnotices]
    intro y x hx
    obtain ⟨hy, hbefore⟩ := h.row y x hx
    exact ⟨hold x y hy, hbefore⟩
  · rw [htimers, hopen, hnotices]
    intro x n hn
    obtain ⟨haction, y, hy, hbefore⟩ := h.timer x n hn
    exact ⟨haction, y, hold x y hy, hbefore⟩
  · rw [hoccupant, hopen]
    intro x y hx hy
    apply h.seated x y hx
    obtain ⟨z, hz⟩ := exists_descriptor?_of_isOpen hx
    rw [hold x z hz] at hy
    rw [hz, hy]
  · rw [htimers, hopen, hsettings]
    exact h.timed
  · rw [htimers, hsettings]
    exact h.untimed
  · rw [hopen, hnotices]
    intro n hn
    obtain ⟨hclosed, hy⟩ := h.notice n hn
    exact ⟨hclosed, hold n.id _ hy⟩

/-- A connection is closed, and taken out of the books. Its notices may be gone. -/
theorem drop (h : r.Kept) (hsettings : q.settings = r.settings)
    (hrows : (q.table.map Prod.fst).Nodup)
    (hoccupant : ∀ y x, q.occupant? y = some x ↔ r.occupant? y = some x ∧ ¬(y = d ∧ x = id))
    (hconsistent : q.timers.Consistent)
    (htimers : q.timers.find? = Function.update r.timers.find? id none)
    (hopen : q.isOpen = Function.update r.isOpen id false)
    (hdescriptor : q.descriptor? = r.descriptor?) (hd : r.descriptor? id = some d)
    (hnotices : ∀ n ∈ q.notices, n ∈ r.notices)
    (hkeeps : ∀ n ∈ r.notices, n.id ≠ id → n ∈ q.notices) : q.Kept := by
  have hother (x : Nat) (hx : x ≠ id) : q.isOpen x = r.isOpen x := by
    rw [hopen, Function.update_of_ne hx]
  have hnotice (x : Nat) (y : Int) (hx : x ≠ id)
      (hbefore : r.isOpen x = false → (⟨x, y⟩ : ClosedNotice) ∈ r.notices)
      (hclosed : q.isOpen x = false) : (⟨x, y⟩ : ClosedNotice) ∈ q.notices :=
    hkeeps _ (hbefore (hother x hx ▸ hclosed)) hx
  refine ⟨hrows, hconsistent, ?_, ?_, ?_, ?_, ?_, ?_⟩
  · intro y x hx
    obtain ⟨hx, hne⟩ := (hoccupant y x).1 hx
    obtain ⟨hy, hbefore⟩ := h.row y x hx
    have hxid : x ≠ id := by
      rintro rfl
      rw [hy] at hd
      exact hne ⟨Option.some.inj hd, rfl⟩
    exact ⟨hdescriptor ▸ hy, hnotice x y hxid hbefore⟩
  · intro x n hn
    have hxid : x ≠ id := by
      rintro rfl
      rw [htimers, Function.update_self] at hn
      cases hn
    rw [htimers, Function.update_of_ne hxid] at hn
    obtain ⟨haction, y, hy, hbefore⟩ := h.timer x n hn
    exact ⟨haction, y, hdescriptor ▸ hy, hnotice x y hxid hbefore⟩
  · intro x y hx hy
    obtain ⟨hxid, hx⟩ := isOpen_of_shut hopen hx
    exact (hoccupant y x).2 ⟨h.seated x y hx (hdescriptor ▸ hy), fun hboth => hxid hboth.2⟩
  · intro x hx
    obtain ⟨hxid, hx⟩ := isOpen_of_shut hopen hx
    rw [htimers, Function.update_of_ne hxid, hsettings]
    exact h.timed x hx
  · intro hnone x
    rw [htimers, Function.update_apply]
    split
    · rfl
    · exact h.untimed (hsettings ▸ hnone) x
  · intro n hn
    obtain ⟨hclosed, hy⟩ := h.notice n (hnotices n hn)
    refine ⟨?_, hdescriptor ▸ hy⟩
    rw [hopen, Function.update_apply]
    split
    · rfl
    · exact hclosed

end Kept

section Steps

variable {r q : Reactor}

/-- The deadlines of some timers are moved. -/
theorem Kept.retime (h : r.Kept) {timers : TimerHeap Nat} (hconsistent : timers.Consistent)
    (htimers : ∀ id, (timers.find? id).map Timer.action = (r.timers.find? id).map Timer.action) :
    Kept { r with timers := timers } := by
  have hsome (id : Nat) : (timers.find? id).isSome = (r.timers.find? id).isSome := by
    rw [← Option.isSome_map, htimers, Option.isSome_map]
  refine ⟨h.nodup_rows, hconsistent, h.row, ?_, h.seated, ?_, ?_, h.notice⟩
  · intro id n hn
    have haction := htimers id
    rw [hn] at haction
    obtain ⟨m, hm, hmn⟩ := Option.map_eq_some_iff.1 haction.symm
    rw [← hmn]
    exact h.timer id m hm
  · intro id hopen
    rw [hsome]
    exact h.timed id hopen
  · intro hnone id
    have huntimed := h.untimed hnone id
    rw [← Option.not_isSome_iff_eq_none, hsome, huntimed]
    simp

theorem kept_extendTimer (h : r.Kept) (now id : Nat) : (r.extendTimer now id).Kept := by
  rw [extendTimer]
  cases r.settings.idleTimeout with
  | none => exact h
  | some t =>
      obtain ⟨-, hconsistent, hfind⟩ := h.consistent.adjustTo id (now + t)
      refine h.retime hconsistent ?_
      intro x
      rw [TimerHeap.adjust, hfind]
      by_cases hx : x = id
      · rw [hx, Function.update_self, Option.map_map]
        rfl
      · rw [Function.update_of_ne hx]

theorem kept_connect (h : r.Kept) (now : Nat) {d : Int} (hfree : r.holds d = false)
    (registers : Bool) : (r.connect now d registers).2.Kept := by
  rcases r.connect_cases now d registers with ⟨-, hq⟩ | ⟨-, c, hc, hq⟩
  · rw [hq]
    have hopen := isOpen_append (r := r) (q := { r with
        links := r.links ++ [⟨d, .fresh r.settings.bufferSize⟩] }) rfl
    have hdescriptor := descriptor?_append (r := r) (q := { r with
        links := r.links ++ [⟨d, .fresh r.settings.bufferSize⟩] }) rfl
    have htimers : (r.startTimer now r.links.length).timers.Consistent ∧
        ((r.settings.idleTimeout = none ∧
            (r.startTimer now r.links.length).timers.find? = r.timers.find?) ∨
          (r.settings.idleTimeout.isSome = true ∧ ∃ t,
            (r.startTimer now r.links.length).timers.find? =
              Function.update r.timers.find? r.links.length
                (some ⟨r.links.length, t, r.links.length⟩))) := by
      rw [startTimer]
      cases r.settings.idleTimeout with
      | none => exact ⟨h.consistent, Or.inl ⟨rfl, rfl⟩⟩
      | some t =>
          obtain ⟨hconsistent, hfind⟩ :=
            h.consistent.scheduleAt r.links.length (now + t) r.links.length
          exact ⟨hconsistent, Or.inr ⟨rfl, now + t, hfind⟩⟩
    exact h.add rfl (nodup_rows_seat h.nodup_rows _ _) (occupant?_seat_eq _ _ _) htimers.1
      htimers.2 hopen hdescriptor hfree rfl
  · rw [hq]
    have hdescriptor := descriptor?_append (r := r) (q := { r with
        links := r.links ++ [⟨d, c⟩] }) rfl
    have hopen := isOpen_append (r := r) (q := { r with links := r.links ++ [⟨d, c⟩] }) rfl
    simp only [hc, Bool.not_true] at hopen
    rw [update_isOpen_eq_self (isOpen_eq_false_of_none r.link?_length)] at hopen
    exact h.addClosed rfl rfl rfl rfl hopen hdescriptor

theorem kept_accept (h : r.Kept) (now : Nat) {d : Int} (hfree : r.holds d = false)
    (registers : Bool) : (r.accept now d registers).2.Kept := by
  rw [accept]
  split
  · exact h.congr rfl rfl rfl rfl rfl rfl
  · exact kept_connect h now hfree registers

theorem kept_hangUp (h : r.Kept) (id : Nat) : (r.hangUp id).Kept := by
  cases hl : r.link? id with
  | none =>
      rw [hangUp, hl]
      exact h
  | some l =>
      obtain ⟨hconsistent, htimers⟩ := dropTimer_find? h.consistent id
      rw [hangUp_eq hl]
      refine h.drop ?_ ?_ ?_ ?_ ?_ ?_ ?_ (descriptor?_eq hl) ?_ ?_
      · simp
      · rw [table_closeLink]
        exact nodup_rows_applyOne h.nodup_rows _
      · intro d x
        rw [occupant?, table_closeLink]
        exact occupant?_applyOne_eq_some_iff
      · rw [timers_closeLink, timers_applyOne]
        exact hconsistent
      · rw [timers_closeLink, timers_applyOne]
        exact htimers
      · rw [isOpen_closeLink, isOpen_of_links_eq (links_applyOne _ _)]
      · rw [descriptor?_closeLink, descriptor?_of_links_eq (links_applyOne _ _)]
      · simp
      · intro n hn _
        simpa using hn

theorem kept_dispatch (h : r.Kept) (now : Nat) (e : Event) : (r.dispatch now e).2.Kept := by
  rcases r.dispatch_cases now e with ⟨-, hq⟩ | ⟨id, -, ⟨-, hq⟩ | ⟨d, -, -, hq⟩⟩
  · rw [hq]
    exact h
  · rw [hq]
    exact kept_hangUp h id
  · rw [hq]
    exact kept_extendTimer h now id

theorem kept_perform (h : r.Kept) (files : FileTree) (job : Job) (conduct : Conduct) :
    (r.perform files job conduct).2.Kept := by
  rcases r.perform_cases files job conduct with
    ⟨-, hq, -⟩ | ⟨l, t, hl, hc, -, -, ⟨hopen, hq⟩ | ⟨hclosed, hq⟩⟩
  · rw [hq]
    exact h
  · have hisOpen := isOpen_update hl t.connection t.stats
    rw [hopen, ← hc, ← isOpen_eq hl, Function.update_eq_self] at hisOpen
    rw [hq]
    exact h.congr rfl rfl rfl rfl hisOpen (descriptor?_update hl t.connection t.stats)
  · have hisOpen := isOpen_update hl t.connection t.stats
    rw [hclosed] at hisOpen
    rw [hq]
    exact h.shut rfl rfl h.consistent (Or.inl rfl) hisOpen
      (descriptor?_update hl t.connection t.stats) (descriptor?_eq hl) rfl

theorem kept_unwind (h : r.Kept) {job : Job} {conduct : Conduct}
    (hq : r.unwind job conduct = some q) : q.Kept := by
  obtain ⟨hopen, hdescriptor⟩ := isOpen_unwind hq
  obtain ⟨l, c, -, -, -, rfl⟩ := unwind_cases hq
  exact h.congr rfl rfl rfl rfl hopen hdescriptor

theorem kept_expireNext (h : r.Kept) {now : Nat} (hq : r.expireNext now = some q) : q.Kept := by
  obtain ⟨⟨n, rest⟩, hpop, rfl⟩ := Option.map_eq_some_iff.1 hq
  obtain ⟨-, hfind, hconsistent, htimers⟩ := popDue?_find? h.consistent hpop
  obtain ⟨haction, d, hd, -⟩ := h.timer n.id n hfind
  obtain ⟨l, hl, rfl⟩ := descriptor?_eq_some_iff.1 hd
  simp only [haction, expireOne_timers]
  rw [expireOne_eq hl]
  refine h.shut ?_ ?_ hconsistent (Or.inr htimers) ?_ ?_ hd rfl
  · exact settings_closeLink _ _ _
  · exact table_closeLink _ _ _
  · exact isOpen_closeLink _ _ _
  · exact descriptor?_closeLink _ _ _

theorem kept_applyNext (h : r.Kept) (hq : r.applyNext = some q) : q.Kept := by
  rw [applyNext] at hq
  cases hn : r.notices with
  | nil =>
      rw [hn] at hq
      cases hq
  | cons n rest =>
      rw [hn] at hq
      obtain rfl := Option.some.inj hq
      obtain ⟨hclosed, hd⟩ := h.notice n (hn ▸ List.mem_cons_self)
      obtain ⟨hconsistent, htimers⟩ := dropTimer_find? h.consistent n.id
      rw [applyOne_notices]
      refine h.drop (settings_applyOne _ _) (nodup_rows_applyOne h.nodup_rows _)
        (fun _ _ => occupant?_applyOne_eq_some_iff) ?_ ?_ ?_ ?_ hd ?_ ?_
      · rw [timers_applyOne]
        exact hconsistent
      · rw [timers_applyOne]
        exact htimers
      · rw [update_isOpen_eq_self hclosed]
        exact isOpen_of_links_eq (links_applyOne _ _)
      · exact descriptor?_of_links_eq (links_applyOne _ _)
      · rw [hn]
        exact fun m hm => List.mem_cons_of_mem _ hm
      · rw [hn]
        intro m hm hne
        rcases List.mem_cons.1 hm with rfl | hm
        · exact absurd rfl hne
        · exact hm

/-- Every step keeps the books. -/
theorem kept_step (h : r.Kept) {s : Step} (hs : r.step s = some q) : q.Kept := by
  cases s with
  | accept now d registers =>
      rw [step] at hs
      split at hs
      · cases hs
      · rename_i hfree
        cases hs
        exact kept_accept h now (Bool.not_eq_true _ ▸ hfree) registers
  | dispatch now e =>
      cases hs
      exact kept_dispatch h now e
  | perform files job conduct =>
      cases hs
      exact kept_perform h files job conduct
  | unwind job conduct => exact kept_unwind h hs
  | expireNext now => exact kept_expireNext h hs
  | expire now =>
      cases hs
      exact expire_induction (fun _ _ h hs => kept_expireNext h hs) h
  | applyNext => exact kept_applyNext h hs
  | applyClosed =>
      cases hs
      exact (applyClosed_induction (fun _ _ h hs => kept_applyNext h hs) h).1

theorem kept_of_reachable {settings : ReactorSettings} (h : Reachable settings r) : r.Kept := by
  induction h with
  | start => exact kept_fresh settings
  | step s _ hs ih => exact kept_step ih hs

end Steps

section Books

/-- An open connection stands in the books, and what the books have of a closed one has a notice
that is still unread. -/
structure Tended (r : Reactor) : Prop where
  seated : ∀ id l, r.link? id = some l → l.connection.closed = false →
    r.occupant? l.descriptor = some id
  timed : ∀ id l, r.link? id = some l → l.connection.closed = false →
    r.settings.idleTimeout.isSome = true → (r.timers.nodes.toList.map Timer.id).count id = 1
  row : ∀ d id, (d, id) ∈ r.table → ∃ l, r.link? id = some l ∧ l.descriptor = d ∧
    (l.connection.closed = true → ⟨id, d⟩ ∈ r.notices)
  timer : ∀ n ∈ r.timers.nodes, ∃ l, r.link? n.id = some l ∧
    (l.connection.closed = true → ⟨n.id, l.descriptor⟩ ∈ r.notices)

/-- The books show the open connections and nothing else. -/
structure Exact (r : Reactor) : Prop where
  nodup_rows : (r.table.map Prod.fst).Nodup
  row_iff : ∀ d id, (d, id) ∈ r.table ↔
    ∃ l, r.link? id = some l ∧ l.descriptor = d ∧ l.connection.closed = false
  timer_iff : ∀ id, id ∈ r.timers.nodes.toList.map Timer.id ↔
    r.settings.idleTimeout.isSome = true ∧
      ∃ l, r.link? id = some l ∧ l.connection.closed = false

/-- Attending to a notice leaves every open connection where it is. -/
def Spares (r : Reactor) (n : ClosedNotice) : Prop :=
  ∀ id l, r.link? id = some l → l.connection.closed = false →
    (r.applyOne n).occupant? l.descriptor = r.occupant? l.descriptor ∧
      (r.applyOne n).timers.find? id = r.timers.find? id

variable {r : Reactor}

/-- The ids for which there are timers. -/
theorem mem_timerIds_iff (h : r.Kept) {id : Nat} :
    id ∈ r.timers.nodes.toList.map Timer.id ↔ (r.timers.find? id).isSome = true := by
  rw [List.mem_map, Option.isSome_iff_exists]
  constructor
  · rintro ⟨n, hn, hid⟩
    exact ⟨n, h.consistent.indexed.find?_eq_some_iff.2 ⟨Array.mem_def.2 hn, hid⟩⟩
  · rintro ⟨n, hn⟩
    obtain ⟨hn, hid⟩ := h.consistent.indexed.find?_eq_some_iff.1 hn
    exact ⟨n, Array.mem_def.1 hn, hid⟩

theorem Kept.tended (h : r.Kept) : r.Tended := by
  refine ⟨?_, ?_, ?_, ?_⟩
  · intro id l hl hc
    exact h.seated id _ (isOpen_eq_true_iff.2 ⟨l, hl, hc⟩) (descriptor?_eq hl)
  · intro id l hl hc htimeout
    apply List.count_eq_one_of_mem h.consistent.indexed.nodup_ids
    rw [mem_timerIds_iff h, h.timed id (isOpen_eq_true_iff.2 ⟨l, hl, hc⟩), htimeout]
  · intro d id hrow
    obtain ⟨hd, hnotice⟩ := h.row d id ((occupant?_eq_some_iff h.nodup_rows).2 hrow)
    obtain ⟨l, hl, rfl⟩ := descriptor?_eq_some_iff.1 hd
    refine ⟨l, hl, rfl, ?_⟩
    rw [isOpen_eq hl, Bool.not_eq_false'] at hnotice
    exact hnotice
  · intro n hn
    obtain ⟨-, d, hd, hnotice⟩ :=
      h.timer n.id n (h.consistent.indexed.find?_eq_some_iff.2 ⟨hn, rfl⟩)
    obtain ⟨l, hl, rfl⟩ := descriptor?_eq_some_iff.1 hd
    refine ⟨l, hl, ?_⟩
    rw [isOpen_eq hl, Bool.not_eq_false'] at hnotice
    exact hnotice

theorem Kept.exact (h : r.Kept) (hnone : r.notices = []) : r.Exact := by
  have hopen {id : Nat} {d : Int} (hnotice : r.isOpen id = false → ⟨id, d⟩ ∈ r.notices) :
      r.isOpen id = true := by
    rw [hnone] at hnotice
    by_contra hclosed
    exact absurd (hnotice (Bool.not_eq_true _ ▸ hclosed)) List.not_mem_nil
  refine ⟨h.nodup_rows, ?_, ?_⟩
  · intro d id
    rw [← occupant?_eq_some_iff h.nodup_rows]
    constructor
    · intro hrow
      obtain ⟨hd, hnotice⟩ := h.row d id hrow
      obtain ⟨l, hl, hc⟩ := isOpen_eq_true_iff.1 (hopen hnotice)
      rw [descriptor?_eq hl] at hd
      exact ⟨l, hl, Option.some.inj hd, hc⟩
    · rintro ⟨l, hl, rfl, hc⟩
      exact h.tended.seated id l hl hc
  · intro id
    rw [mem_timerIds_iff h, ← isOpen_eq_true_iff]
    constructor
    · intro hsome
      obtain ⟨n, hn⟩ := Option.isSome_iff_exists.1 hsome
      obtain ⟨-, d, -, hnotice⟩ := h.timer id n hn
      rw [← h.timed id (hopen hnotice)]
      exact ⟨hsome, hopen hnotice⟩
    · rintro ⟨htimeout, hid⟩
      rw [h.timed id hid, htimeout]

theorem Kept.spares (h : r.Kept) {n : ClosedNotice} (hn : n ∈ r.notices) : r.Spares n := by
  intro id l hl hc
  obtain ⟨hclosed, -⟩ := h.notice n hn
  have hopen := isOpen_eq_true_iff.2 ⟨l, hl, hc⟩
  have hne : id ≠ n.id := by
    rintro rfl
    rw [hclosed] at hopen
    cases hopen
  have hrow := h.tended.seated id l hl hc
  refine ⟨?_, ?_⟩
  · rw [hrow, occupant?_applyOne_eq_some_iff]
    exact ⟨hrow, fun hboth => hne hboth.2⟩
  · rw [timers_applyOne, (dropTimer_find? h.consistent n.id).2, Function.update_of_ne hne]

/-- In every state that a reactor can come to the books are kept: a late notice does no harm to a
newer connection, and where all notices were attended to the books show the open connections. -/
theorem tended_of_reachable {settings : ReactorSettings} (h : Reachable settings r) :
    r.settings = settings ∧ r.Tended ∧ (∀ n ∈ r.notices, r.Spares n) ∧
      (r.notices = [] → r.Exact) ∧
      r.applyClosed.notices = [] ∧ r.applyClosed.Exact := by
  have hkept := kept_of_reachable h
  have happlied := applyClosed_induction (fun _ _ h hs => kept_applyNext h hs) hkept
  exact ⟨settings_of_reachable h, hkept.tended, fun n hn => hkept.spares hn, hkept.exact,
    happlied.2, happlied.1.exact happlied.2⟩

/-- A worker closes the first connection, and the next client has its descriptor before the notice
is read. -/
def reused : Option Reactor :=
  (((fresh ⟨⟨[], .empty⟩, some 10, 4, 64⟩).step (.accept 0 5 true)).bind fun r =>
    r.step (.perform .empty ⟨0, .reading⟩ ⟨[.ok []], [], true⟩)).bind fun r =>
      r.step (.accept 1 5 true)

theorem reachable_reused {r : Reactor} (h : reused = some r) :
    Reachable ⟨⟨[], .empty⟩, some 10, 4, 64⟩ r := by
  obtain ⟨q, hq, hr⟩ := Option.bind_eq_some_iff.1 h
  obtain ⟨p, hp, hq⟩ := Option.bind_eq_some_iff.1 hq
  exact .step _ (.step _ (.step _ .start hp) hq) hr

theorem tended_reused :
    ∃ r, Reachable ⟨⟨[], .empty⟩, some 10, 4, 64⟩ r ∧ r.notices = [⟨0, 5⟩] ∧
      r.table = [(5, 1)] ∧ r.Tended ∧ r.Spares ⟨0, 5⟩ ∧ r.applyClosed.Exact := by
  have hview : reused.map (fun r => (r.notices, r.table)) = some ([⟨0, 5⟩], [(5, 1)]) := by
    decide +kernel
  obtain ⟨r, hr, hview⟩ := Option.map_eq_some_iff.1 hview
  obtain ⟨hnotices, htable⟩ := Prod.mk.inj hview
  have hreach := reachable_reused hr
  obtain ⟨-, htended, hspares, -, -, hexact⟩ := tended_of_reachable hreach
  exact ⟨r, hreach, hnotices, htable, htended, hspares _ (hnotices ▸ List.mem_singleton_self _),
    hexact⟩

end Books

end Reactor

end HttpServer
