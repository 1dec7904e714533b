import HttpServer.Proofs.Time.Strict
import Mathlib.Algebra.Group.Nat.Defs
import Mathlib.Data.Nat.Log

/-!
# The repair of one slot

When one deadline was changed, a heap is out of order at that slot at most: with another deadline
there it would be in order. `reposition` repairs such a heap by moving the timer, down or else up.

`Repair.pass` is one pass of the loop that moves a timer down, or of the one that moves it up, and
fails where it looks at a slot that is not taken. A pass down goes to at least twice the slot, a
pass up to at most half of it. So no repair fails, and none takes more than one pass more than the
heap has levels. Taking a timer out is the repair of the slot that the last timer takes.
-/

namespace HttpServer

namespace TimerHeap

variable {α : Type} {t : TimerHeap α} {j k m n slot start deadline : Nat}

section Retimed

/-- The timer at a slot with another deadline. -/
def retimed (t : TimerHeap α) (slot deadline : Nat) : TimerHeap α :=
  { t with nodes := t.nodes.modify slot fun n => { n with deadline := deadline } }

@[simp] theorem size_retimed (t : TimerHeap α) (slot deadline : Nat) :
    (t.retimed slot deadline).size = t.size :=
  Array.size_modify

theorem nodes_retimed_self (t : TimerHeap α) (slot deadline : Nat) :
    (t.retimed slot deadline).nodes[slot]? =
      (t.nodes[slot]?).map fun n => { n with deadline := deadline } := by
  rw [retimed, Array.getElem?_modify, if_pos rfl]

theorem nodes_retimed_of_ne (h : k ≠ slot) :
    (t.retimed slot deadline).nodes[k]? = t.nodes[k]? := by
  rw [retimed, Array.getElem?_modify, if_neg (Ne.symm h)]

theorem Indexed.retimed (h : t.Indexed) (slot deadline : Nat) :
    (t.retimed slot deadline).Indexed := by
  intro id k
  change t.slots[id]? = some k ↔ _
  rw [h id]
  by_cases hk : k = slot
  · rw [hk, nodes_retimed_self]
    cases t.nodes[slot]? with
    | none => simp
    | some n => simp
  · rw [nodes_retimed_of_ne hk]

/-- The order but for one slot does not depend on the deadline there. -/
theorem orderedBut_retimed_iff (t : TimerHeap α) (slot deadline : Nat) :
    (t.retimed slot deadline).OrderedBut slot ↔ t.OrderedBut slot := by
  constructor
  · intro h
    apply h.of_nodes
    intro k n hk hn
    rw [nodes_retimed_of_ne hk]
    exact hn
  · intro h
    apply h.of_nodes
    intro k n hk hn
    rw [nodes_retimed_of_ne hk] at hn
    exact hn

/-- Any deadline between the one above and those below will do. -/
theorem OrderedBut.ordered_retimed (h : t.OrderedBut slot)
    (hup : 0 < slot → ∀ x, t.nodes[parent slot]? = some x → x.deadline ≤ deadline)
    (hdown : ∀ j, 0 < j → parent j = slot → ∀ y, t.nodes[j]? = some y → deadline ≤ y.deadline) :
    (t.retimed slot deadline).Ordered := by
  apply ((orderedBut_retimed_iff t slot deadline).2 h).ordered
  · intro hpos
    rw [dueBy_eq_true_iff]
    intro x y hx hy
    rw [nodes_retimed_of_ne (Nat.ne_of_lt (parent_lt hpos))] at hx
    rw [nodes_retimed_self, Option.map_eq_some_iff] at hy
    obtain ⟨_, -, rfl⟩ := hy
    exact hup hpos x hx
  · intro j hj hp
    rw [dueBy_eq_true_iff]
    intro x y hx hy
    rw [nodes_retimed_self, Option.map_eq_some_iff] at hx
    rw [nodes_retimed_of_ne (hp ▸ Nat.ne_of_gt (parent_lt hj))] at hy
    obtain ⟨_, -, rfl⟩ := hx
    exact hdown j hj hp y hy

/-- A heap is in order but for one slot exactly if some deadline there would put it in order. The
one above would, and at the root the earliest of all. -/
theorem orderedBut_iff_exists_retimed :
    t.OrderedBut slot ↔ ∃ deadline, (t.retimed slot deadline).Ordered := by
  constructor
  · intro h
    by_cases habove : ∃ above, 0 < slot ∧ t.nodes[parent slot]? = some above
    · obtain ⟨above, hpos, habove⟩ := habove
      refine ⟨above.deadline, h.ordered_retimed ?_ ?_⟩
      · intro _ x hx
        rw [habove] at hx
        cases hx
        exact Nat.le_refl _
      · intro j hj hp y hy
        exact dueBy_eq_true_iff.1 (h.across hpos j hj hp) above y habove hy
    · refine ⟨0, h.ordered_retimed ?_ ?_⟩
      · intro hpos x hx
        exact absurd ⟨x, hpos, hx⟩ habove
      · intro j _ _ y _
        exact Nat.zero_le y.deadline
  · rintro ⟨deadline, h⟩
    exact (orderedBut_retimed_iff t slot deadline).1 (h.orderedBut slot)

end Retimed

/-- How far a repair is: before a pass down, before a pass up, or at its end. -/
inductive Repair (α : Type) where
  | down (t : TimerHeap α) (slot : Nat)
  | up (t : TimerHeap α) (slot : Nat)
  | done (t : TimerHeap α)

namespace Repair

/-- What follows where a timer from slot `start` goes down no further: it goes up only if it has not
moved. -/
def afterDown (start : Nat) (t : TimerHeap α) (slot : Nat) : Repair α :=
  if start < slot then .done t else .up t start

/-- One pass of a repair at slot `start`, which fails at a slot that is not taken. -/
def pass (start : Nat) : Repair α → Option (Repair α)
  | .down t slot =>
    if leftChild slot < t.size then
      (Strict.earlierChild t slot).bind fun child =>
        (Strict.dueBy t slot child).bind fun due =>
          if due then some (afterDown start t slot)
          else (Strict.swap t slot child).map fun s => .down s child
    else some (afterDown start t slot)
  | .up t slot =>
    if slot = 0 then some (.done t)
    else
      (Strict.dueBy t (parent slot) slot).bind fun due =>
        if due then some (.done t)
        else (Strict.swap t slot (parent slot)).map fun s => .up s (parent slot)
  | .done t => some (.done t)

/-- Some passes, one after the other. -/
def passes (start : Nat) : Nat → Repair α → Option (Repair α)
  | 0, r => some r
  | n + 1, r => (r.pass start).bind (passes start n)

variable {r u v : Repair α}

theorem passes_one (h : r.pass start = some u) : passes start 1 r = some u := by
  rw [passes, h]
  rfl

theorem passes_cons (h : r.pass start = some u) (hrun : passes start n u = some v) :
    passes start (n + 1) r = some v := by
  rw [passes, h]
  exact hrun

theorem passes_append (h : passes start m r = some u) (hrun : passes start n u = some v) :
    passes start (m + n) r = some v := by
  induction m generalizing r with
  | zero =>
      cases h
      rw [Nat.zero_add]
      exact hrun
  | succ m ih =>
      rw [passes, Option.bind_eq_some_iff] at h
      obtain ⟨w, hw, hm⟩ := h
      rw [Nat.add_right_comm]
      exact passes_cons hw (ih hm)

section Down

theorem pass_down_of_size_le (h : t.size ≤ leftChild slot) :
    (down t slot).pass start = some (afterDown start t slot) :=
  if_neg (Nat.not_lt.2 h)

theorem pass_down (h : leftChild slot < t.size) :
    (down t slot).pass start =
      if t.dueBy slot (t.earlierChild slot) then some (afterDown start t slot)
      else some (.down (t.swap slot (t.earlierChild slot)) (t.earlierChild slot)) := by
  have hslot := Nat.lt_trans (lt_leftChild slot) h
  have hchild := earlierChild_lt h
  rw [pass, if_pos h, Strict.earlierChild_eq h, Option.bind_some, Strict.dueBy_eq hslot hchild,
    Option.bind_some, Strict.swap_eq hslot hchild]
  rfl

theorem le_earlierChild (t : TimerHeap α) (slot : Nat) :
    2 * (slot + 1) ≤ t.earlierChild slot + 1 := by
  unfold earlierChild leftChild
  split <;> omega

/-- The loop down ends where `siftDown` does. The slot has doubled with every exchange. -/
theorem passes_siftDown (start : Nat) (h : slot < t.size) :
    ∃ n, 2 ^ n * (slot + 1) ≤ (t.siftDown slot).2 + 1 ∧ (t.siftDown slot).2 < t.size ∧
      passes start (n + 1) (.down t slot) =
        some (afterDown start (t.siftDown slot).1 (t.siftDown slot).2) := by
  fun_induction TimerHeap.siftDown t slot with
  | case1 t slot hleft hdue =>
      refine ⟨0, ?_, h, passes_one ?_⟩
      · rw [Nat.pow_zero, Nat.one_mul]
      · rw [pass_down hleft, if_pos hdue]
  | case2 t slot hleft hdue ih =>
      rw [size_swap] at ih
      obtain ⟨n, hdeep, hrest, hrun⟩ := ih (earlierChild_lt hleft)
      refine ⟨n + 1, ?_, hrest, passes_cons ?_ hrun⟩
      · calc 2 ^ (n + 1) * (slot + 1) = 2 ^ n * (2 * (slot + 1)) := by
              rw [Nat.pow_succ, Nat.mul_assoc]
          _ ≤ 2 ^ n * (t.earlierChild slot + 1) := Nat.mul_le_mul_left _ (le_earlierChild t slot)
          _ ≤ _ := hdeep
      · rw [pass_down hleft, if_neg hdue]
  | case3 t slot hleft =>
      refine ⟨0, ?_, h, passes_one ?_⟩
      · rw [Nat.pow_zero, Nat.one_mul]
      · exact pass_down_of_size_le (Nat.not_lt.1 hleft)

end Down

section Up

theorem pass_up (hpos : 0 < slot) (h : slot < t.size) :
    (up t slot).pass start =
      if t.dueBy (parent slot) slot then some (.done t)
      else some (.up (t.swap slot (parent slot)) (parent slot)) := by
  have hparent := Nat.lt_trans (parent_lt hpos) h
  rw [pass, if_neg (Nat.ne_of_gt hpos), Strict.dueBy_eq hparent h, Option.bind_some,
    Strict.swap_eq h hparent]
  rfl

theorem parent_add_one_le (hpos : 0 < slot) : 2 * (parent slot + 1) ≤ slot + 1 := by
  unfold parent
  omega

/-- The loop up ends with `siftUp`. The slot has halved with every exchange. -/
theorem passes_siftUp (start : Nat) (h : slot < t.size) :
    ∃ n, 2 ^ n ≤ slot + 1 ∧
      passes start (n + 1) (.up t slot) = some (.done (t.siftUp slot)) := by
  fun_induction TimerHeap.siftUp t slot with
  | case1 t =>
      exact ⟨0, Nat.le_refl _, passes_one rfl⟩
  | case2 t slot hne hdue =>
      refine ⟨0, Nat.le_add_left 1 slot, passes_one ?_⟩
      rw [pass_up (Nat.pos_of_ne_zero hne) h, if_pos hdue]
  | case3 t slot hne hdue ih =>
      have hpos := Nat.pos_of_ne_zero hne
      rw [size_swap] at ih
      obtain ⟨n, hhigh, hrun⟩ := ih (Nat.lt_trans (parent_lt hpos) h)
      refine ⟨n + 1, ?_, passes_cons ?_ hrun⟩
      · calc 2 ^ (n + 1) = 2 * 2 ^ n := Nat.pow_succ'
          _ ≤ 2 * (parent slot + 1) := Nat.mul_le_mul_left 2 hhigh
          _ ≤ slot + 1 := parent_add_one_le hpos
      · rw [pass_up hpos h, if_neg hdue]

end Up

section Ends

/-- A timer that moves down rests within the levels of the heap, and the repair is at its end. -/
theorem passes_of_lt (h : slot < t.size) (hmoved : slot < (t.siftDown slot).2) :
    ∃ n ≤ Nat.log 2 t.size + 1,
      passes slot n (.down t slot) = some (.done (t.siftDown slot).1) := by
  obtain ⟨n, hdeep, hrest, hrun⟩ := passes_siftDown slot h
  rw [afterDown, if_pos hmoved] at hrun
  refine ⟨n + 1, Nat.succ_le_succ (Nat.le_log_of_pow_le Nat.one_lt_two ?_), hrun⟩
  calc 2 ^ n ≤ 2 ^ n * (slot + 1) := Nat.le_mul_of_pos_right _ (Nat.succ_pos slot)
    _ ≤ (t.siftDown slot).2 + 1 := hdeep
    _ ≤ t.size := hrest

/-- A timer that does not move down is to go up after one pass, from the slot where it is. -/
theorem passes_of_le (h : slot < t.size) (hstays : (t.siftDown slot).2 ≤ slot) :
    passes slot 1 (.down t slot) = some (.up (t.siftDown slot).1 slot) := by
  obtain ⟨n, hdeep, -, hrun⟩ := passes_siftDown slot h
  have hzero : n = 0 := by
    by_contra hne
    have hdouble := Nat.mul_le_mul_right (slot + 1) (Nat.le_self_pow hne 2)
    omega
  rw [hzero, afterDown, if_neg (Nat.not_lt.2 hstays)] at hrun
  exact hrun

/-- A repair comes to its end, and to what `reposition` tells. -/
theorem passes_reposition (h : slot < t.size) :
    ∃ n ≤ Nat.log 2 t.size + 2,
      passes slot n (.down t slot) = some (.done (t.reposition slot)) := by
  rw [reposition_eq]
  split
  · rename_i hmoved
    obtain ⟨n, hn, hrun⟩ := passes_of_lt h hmoved
    exact ⟨n, Nat.le_succ_of_le hn, hrun⟩
  · rename_i hstays
    have hslot : slot < (t.siftDown slot).1.size := by
      rw [size_siftDown]
      exact h
    obtain ⟨n, hhigh, hup⟩ := passes_siftUp slot hslot
    have hn : n ≤ Nat.log 2 t.size :=
      Nat.le_log_of_pow_le Nat.one_lt_two (Nat.le_trans hhigh h)
    refine ⟨1 + (n + 1), ?_, passes_append (passes_of_le h (Nat.not_lt.1 hstays)) hup⟩
    omega

end Ends

end Repair

/-- The repair at a slot comes to its end, moves whole timers and nothing else, and leaves the index
and the order right. -/
structure Repaired (t : TimerHeap α) (slot : Nat) (s : TimerHeap α) : Prop where
  ends : ∃ n ≤ Nat.log 2 t.size + 2, Repair.passes slot n (.down t slot) = some (.done s)
  perm : s.nodes.toList.Perm t.nodes.toList
  consistent : s.Consistent

/-- The timer at a slot is taken out, and the others are left. -/
structure Removed (t : TimerHeap α) (slot : Nat) (n : Timer α) (s : TimerHeap α) : Prop where
  nodes_eq : t.nodes[slot]? = some n
  removeAt_eq : Strict.removeAt t slot = some (n, s)
  perm : (n :: s.nodes.toList).Perm t.nodes.toList
  consistent : s.Consistent

theorem Indexed.repaired (h : t.Indexed) (hslot : slot < t.size) (hbut : t.OrderedBut slot) :
    Repaired t slot (t.reposition slot) :=
  ⟨Repair.passes_reposition hslot, (rearranged_reposition t slot).perm,
    (consistent_reposition h hbut).1⟩

theorem Consistent.removed (h : t.Consistent) (hslot : slot < t.size) :
    ∃ n s, Removed t slot n s := by
  obtain ⟨n, hn⟩ := exists_nodes_eq hslot
  obtain ⟨s, hs, hconsistent, hperm⟩ := h.removeAt? hn
  exact ⟨n, s, hn, (Strict.removeAt_eq t slot).trans hs, hperm, hconsistent⟩

/-- Where the index is right, and another deadline at one slot would put the timers in order,
repositioning that slot does. So a timer can be taken out of any slot of a heap that is in order. -/
theorem repaired_and_removed (h : t.Indexed) (hslot : slot < t.size) :
    (t.OrderedBut slot ↔ ∃ deadline, (t.retimed slot deadline).Ordered) ∧
      (t.OrderedBut slot → Repaired t slot (t.reposition slot)) ∧
      (t.Ordered → ∃ n s, Removed t slot n s) := by
  refine ⟨orderedBut_iff_exists_retimed, h.repaired hslot, ?_⟩
  intro ho
  exact Consistent.removed ⟨h, ho⟩ hslot

/-- Timers set one after the other, in order as they stand. -/
def uneven : TimerHeap Char :=
  (((((scheduleAt empty 1 10 'a').scheduleAt 2 40 'b').scheduleAt 3 20 'c').scheduleAt 4 50
    'd').scheduleAt 5 60 'e').scheduleAt 6 25 'f'

theorem consistent_uneven : uneven.Consistent :=
  ((((((consistent_empty.scheduleAt 1 10 'a').1.scheduleAt 2 40 'b').1.scheduleAt 3 20
    'c').1.scheduleAt 4 50 'd').1.scheduleAt 5 60 'e').1.scheduleAt 6 25 'f').1

/-- The fifth of them, made the earliest, goes up to the root. When the fourth is taken out the last
takes its slot, and goes up as well. -/
theorem repaired_and_removed_uneven :
    ((uneven.retimed 4 5).Indexed ∧ 4 < (uneven.retimed 4 5).size ∧
      (uneven.retimed 4 5).OrderedBut 4 ∧
      Repaired (uneven.retimed 4 5) 4 ((uneven.retimed 4 5).reposition 4) ∧
      ((uneven.retimed 4 5).reposition 4).nodes.toList.map Timer.id = [5, 1, 3, 4, 2, 6]) ∧
    (uneven.Indexed ∧ 3 < uneven.size ∧ uneven.Ordered ∧
      ∃ n s, Removed uneven 3 n s ∧ n.action = 'd' ∧
        s.nodes.toList.map Timer.id = [1, 6, 3, 2, 5]) := by
  have hindexed := consistent_uneven.indexed
  have hordered := consistent_uneven.ordered
  have hsize : uneven.size = 6 := by cbv
  constructor
  · have hslot : 4 < (uneven.retimed 4 5).size := by
      rw [size_retimed, hsize]
      decide
    have hbut := (orderedBut_retimed_iff uneven 4 5).2 (hordered.orderedBut 4)
    refine ⟨hindexed.retimed 4 5, hslot, hbut, ?_, by cbv⟩
    exact (repaired_and_removed (hindexed.retimed 4 5) hslot).2.1 hbut
  · have hslot : 3 < uneven.size := by
      rw [hsize]
      decide
    obtain ⟨n, s, h⟩ := (repaired_and_removed hindexed hslot).2.2 hordered
    have hn : uneven.nodes[3]? = some ⟨4, 50, 'd'⟩ := by cbv
    have hs := h.removeAt_eq
    rw [Strict.removeAt_eq, removeAt?_eq hn, Option.some_inj, Prod.mk.injEq] at hs
    obtain ⟨rfl, rfl⟩ := hs
    exact ⟨hindexed, hslot, hordered, _, _, h, rfl, by cbv⟩

end TimerHeap

end HttpServer
