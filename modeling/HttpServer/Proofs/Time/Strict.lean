import HttpServer.Proofs.Time.Consistency

/-!
# Operations that fail at a slot that is not taken

The operations of a heap pass over slots that are not taken. Here they are once more, step by step,
but whenever they look at a slot that is not taken they fail. On a heap whose index is right they
never do, and come to the same.
-/

namespace HttpServer

namespace TimerHeap

variable {α : Type} {t : TimerHeap α} {a b slot : Nat}

namespace Strict

/-- Compares the timers at two slots. -/
def dueBy (t : TimerHeap α) (a b : Nat) : Option Bool :=
  t.nodes[a]?.bind fun x => t.nodes[b]?.map fun y => decide (x.deadline ≤ y.deadline)

/-- Notes the slot at which a timer stands. -/
def note (t : TimerHeap α) (slot : Nat) : Option (TimerHeap α) :=
  t.nodes[slot]?.map fun n => { t with slots := t.slots.insert n.id slot }

/-- Exchanges the timers at two slots. -/
def swap (t : TimerHeap α) (a b : Nat) : Option (TimerHeap α) :=
  if a < t.size ∧ b < t.size then
    (note { t with nodes := t.nodes.swapIfInBounds a b } a).bind fun s => note s b
  else none

theorem dueBy_eq (ha : a < t.size) (hb : b < t.size) : dueBy t a b = some (t.dueBy a b) := by
  obtain ⟨x, hx⟩ := exists_nodes_eq ha
  obtain ⟨y, hy⟩ := exists_nodes_eq hb
  unfold dueBy TimerHeap.dueBy
  rw [hx, hy]
  rfl

theorem note_eq (h : slot < t.size) : note t slot = some (t.note slot) := by
  obtain ⟨n, hn⟩ := exists_nodes_eq h
  unfold note TimerHeap.note
  rw [hn]
  rfl

theorem swap_eq (ha : a < t.size) (hb : b < t.size) : swap t a b = some (t.swap a b) := by
  have hsize : ({ t with nodes := t.nodes.swapIfInBounds a b } : TimerHeap α).size = t.size :=
    Array.size_swapIfInBounds
  unfold swap TimerHeap.swap
  rw [if_pos ⟨ha, hb⟩, note_eq (hsize ▸ ha), Option.bind_some]
  apply note_eq
  rw [size_note]
  exact hsize ▸ hb

/-- Moves the timer at a slot up while its parent is due later. -/
def siftUp (t : TimerHeap α) (slot : Nat) : Option (TimerHeap α) :=
  if slot = 0 then some t
  else
    match dueBy t (parent slot) slot with
    | none => none
    | some true => some t
    | some false =>
      match swap t slot (parent slot) with
      | none => none
      | some s => siftUp s (parent slot)
termination_by slot
decreasing_by exact parent_lt (Nat.pos_of_ne_zero ‹_›)

theorem siftUp_eq (h : slot < t.size) : siftUp t slot = some (t.siftUp slot) := by
  fun_induction TimerHeap.siftUp t slot with
  | case1 t =>
      unfold siftUp
      rfl
  | case2 t slot hne hdue =>
      have hp : parent slot < t.size := Nat.lt_trans (parent_lt (Nat.pos_of_ne_zero hne)) h
      unfold siftUp
      rw [if_neg hne, dueBy_eq hp h, hdue]
  | case3 t slot hne hdue ih =>
      have hp : parent slot < t.size := Nat.lt_trans (parent_lt (Nat.pos_of_ne_zero hne)) h
      unfold siftUp
      rw [if_neg hne, dueBy_eq hp h, Bool.eq_false_iff.2 hdue, swap_eq h hp]
      apply ih
      rw [size_swap]
      exact hp

/-- The slot below `slot` whose timer is due first. -/
def earlierChild (t : TimerHeap α) (slot : Nat) : Option Nat :=
  if leftChild slot + 1 < t.size then
    (dueBy t (leftChild slot) (leftChild slot + 1)).map fun due =>
      if due then leftChild slot else leftChild slot + 1
  else some (leftChild slot)

theorem earlierChild_eq (h : leftChild slot < t.size) :
    earlierChild t slot = some (t.earlierChild slot) := by
  unfold earlierChild TimerHeap.earlierChild
  split
  · rename_i hright
    rw [dueBy_eq h hright, Option.map_some]
    cases t.dueBy (leftChild slot) (leftChild slot + 1) with
    | false => simp [hright]
    | true => simp
  · rename_i hright
    rw [if_neg (fun hboth => hright hboth.1)]

theorem lt_of_earlierChild_eq_some {child : Nat} (h : earlierChild t slot = some child) :
    slot < child := by
  have hleft := lt_leftChild slot
  unfold earlierChild at h
  split at h
  · obtain ⟨due, -, hchild⟩ := Option.map_eq_some_iff.1 h
    rw [← hchild]
    split
    · exact hleft
    · exact Nat.lt_succ_of_lt hleft
  · cases h
    exact hleft

theorem size_of_swap_eq_some {s : TimerHeap α} (h : swap t a b = some s) : s.size = t.size := by
  by_cases hab : a < t.size ∧ b < t.size
  · rw [swap_eq hab.1 hab.2] at h
    cases h
    exact size_swap t a b
  · unfold swap at h
    rw [if_neg hab] at h
    cases h

/-- Moves the timer at a slot down while one below it is due earlier. -/
def siftDown (t : TimerHeap α) (slot : Nat) : Option (TimerHeap α × Nat) :=
  if hleft : leftChild slot < t.size then
    match hchild : earlierChild t slot with
    | none => none
    | some child =>
      match dueBy t slot child with
      | none => none
      | some true => some (t, slot)
      | some false =>
        match hswap : swap t slot child with
        | none => none
        | some s =>
          have : s.size - child < t.size - slot := by
            have := lt_of_earlierChild_eq_some hchild
            rw [size_of_swap_eq_some hswap]
            have := Nat.lt_trans (lt_leftChild slot) hleft
            omega
          siftDown s child
  else some (t, slot)
termination_by t.size - slot

theorem siftDown_eq (t : TimerHeap α) (slot : Nat) : siftDown t slot = some (t.siftDown slot) := by
  fun_induction TimerHeap.siftDown t slot with
  | case1 t slot hleft hdue =>
      have hslot := Nat.lt_trans (lt_leftChild slot) hleft
      rw [siftDown, dif_pos hleft]
      split
      · rename_i hchild
        rw [earlierChild_eq hleft] at hchild
        cases hchild
      · rename_i child hchild
        rw [earlierChild_eq hleft] at hchild
        cases hchild
        rw [dueBy_eq hslot (TimerHeap.earlierChild_lt hleft), hdue]
  | case2 t slot hleft hdue ih =>
      have hslot := Nat.lt_trans (lt_leftChild slot) hleft
      rw [siftDown, dif_pos hleft]
      split
      · rename_i hchild
        rw [earlierChild_eq hleft] at hchild
        cases hchild
      · rename_i child hchild
        rw [earlierChild_eq hleft] at hchild
        cases hchild
        rw [dueBy_eq hslot (TimerHeap.earlierChild_lt hleft), Bool.eq_false_iff.2 hdue]
        simp only
        split
        · rename_i hswap
          rw [swap_eq hslot (TimerHeap.earlierChild_lt hleft)] at hswap
          cases hswap
        · rename_i s hswap
          rw [swap_eq hslot (TimerHeap.earlierChild_lt hleft)] at hswap
          cases hswap
          exact ih
  | case3 t slot hleft =>
      rw [siftDown, dif_neg hleft]

/-- Puts the timer at a slot where it belongs. -/
def reposition (t : TimerHeap α) (slot : Nat) : Option (TimerHeap α) :=
  (siftDown t slot).bind fun moved =>
    if slot < moved.2 then some moved.1 else siftUp moved.1 slot

theorem reposition_eq (h : slot < t.size) : reposition t slot = some (t.reposition slot) := by
  unfold reposition
  rw [siftDown_eq, Option.bind_some, TimerHeap.reposition_eq]
  split
  · rfl
  · apply siftUp_eq
    rw [size_siftDown]
    exact h

/-- Takes the timer at a slot out. -/
def removeAt (t : TimerHeap α) (slot : Nat) : Option (Timer α × TimerHeap α) :=
  t.nodes[slot]?.bind fun n =>
    if slot < (t.cut slot n).size then
      (note (t.cut slot n) slot).bind fun s => (reposition s slot).map fun r => (n, r)
    else some (n, t.cut slot n)

theorem removeAt_eq (t : TimerHeap α) (slot : Nat) : removeAt t slot = t.removeAt? slot := by
  unfold removeAt TimerHeap.removeAt?
  cases t.nodes[slot]? with
  | none => rfl
  | some n =>
      rw [Option.bind_some]
      change _ = some (n, if slot < (t.cut slot n).size then
        ((t.cut slot n).note slot).reposition slot else t.cut slot n)
      split
      · rename_i hlt
        have hlt' : slot < ((t.cut slot n).note slot).size := by
          rw [size_note]
          exact hlt
        rw [note_eq hlt, Option.bind_some, reposition_eq hlt']
        rfl
      · rfl

/-- Sets a timer, in place of the one for that id. -/
def scheduleAt (t : TimerHeap α) (id deadline : Nat) (action : α) : Option (TimerHeap α) :=
  match t.slots[id]? with
  | some slot =>
    t.nodes[slot]?.bind fun _ =>
      reposition { t with nodes := t.nodes.setIfInBounds slot ⟨id, deadline, action⟩ } slot
  | none => siftUp ⟨t.nodes.push ⟨id, deadline, action⟩, t.slots.insert id t.size⟩ t.size

theorem scheduleAt_eq (h : t.Indexed) (id deadline : Nat) (action : α) :
    scheduleAt t id deadline action = some (t.scheduleAt id deadline action) := by
  unfold scheduleAt TimerHeap.scheduleAt
  cases hs : t.slots[id]? with
  | some slot =>
      obtain ⟨n, hn, -⟩ := h.nodes_eq hs
      simp only [hn, Option.bind_some]
      apply reposition_eq
      change slot < (t.nodes.setIfInBounds slot _).size
      rw [Array.size_setIfInBounds]
      exact lt_size_of_nodes_eq hn
  | none =>
      apply siftUp_eq
      change t.size < (t.nodes.push _).size
      rw [Array.size_push]
      exact Nat.lt_succ_self _

/-- Moves the deadline for an id and says whether there is one. -/
def adjustTo (t : TimerHeap α) (id deadline : Nat) : Option (Bool × TimerHeap α) :=
  match t.slots[id]? with
  | some slot =>
    t.nodes[slot]?.bind fun _ =>
      let nodes := t.nodes.modify slot fun n => { n with deadline := deadline }
      (reposition { t with nodes := nodes } slot).map fun s => (true, s)
  | none => some (false, t)

theorem adjustTo_eq (h : t.Indexed) (id deadline : Nat) :
    adjustTo t id deadline = some (t.adjustTo id deadline) := by
  unfold adjustTo TimerHeap.adjustTo
  cases hs : t.slots[id]? with
  | some slot =>
      obtain ⟨n, hn, -⟩ := h.nodes_eq hs
      simp only [hn, Option.bind_some]
      rw [reposition_eq]
      · rfl
      · change slot < (t.nodes.modify slot _).size
        rw [Array.size_modify]
        exact lt_size_of_nodes_eq hn
  | none => rfl

/-- Takes the timer for an id out. -/
def take (t : TimerHeap α) (id : Nat) : Option (Option (Timer α × TimerHeap α)) :=
  match t.slots[id]? with
  | some slot => (removeAt t slot).map some
  | none => some none

theorem take_eq (h : t.Indexed) (id : Nat) : take t id = some (t.take? id) := by
  unfold take take?
  cases hs : t.slots[id]? with
  | some slot =>
      obtain ⟨n, hn, -⟩ := h.nodes_eq hs
      simp only [Option.bind_some]
      rw [removeAt_eq, TimerHeap.removeAt?_eq hn]
      rfl
  | none => rfl

/-- Takes out every timer that is due at `now`. -/
def fireDue (t : TimerHeap α) (now : Nat) : Option (List (Timer α) × TimerHeap α) :=
  match t.nodes[0]? with
  | none => some ([], t)
  | some root =>
    if now < root.deadline then some ([], t)
    else
      match h : removeAt t 0 with
      | none => none
      | some (n, rest) =>
        have : rest.size < t.size := by
          have := size_removeAt? (removeAt_eq t 0 ▸ h)
          omega
        (fireDue rest now).map fun r => (n :: r.1, r.2)
termination_by t.size

theorem fireDue_eq (t : TimerHeap α) (now : Nat) : fireDue t now = some (t.fireDue now) := by
  fun_induction TimerHeap.fireDue t now with
  | case1 t hnone =>
      rw [fireDue]
      split
      · rfl
      · rename_i root hroot
        rw [hnone] at hroot
        cases hroot
  | case2 t root hroot hlt =>
      rw [fireDue]
      simp only [hroot, if_pos hlt]
  | case3 t root hroot hlt hnone =>
      rw [TimerHeap.removeAt?_eq hroot] at hnone
      cases hnone
  | case4 t root hroot hlt n rest hremoved hsize fired last hlast ih =>
      rw [fireDue]
      simp only [hroot, if_neg hlt]
      split
      · rename_i hnone
        rw [removeAt_eq, hremoved] at hnone
        cases hnone
      · rename_i n' rest' hremoved'
        rw [removeAt_eq, hremoved] at hremoved'
        cases hremoved'
        rw [ih, Option.map_some, hlast]

/-- The deadline set for an id. -/
def deadline (t : TimerHeap α) (id : Nat) : Option (Option Nat) :=
  match t.slots[id]? with
  | some slot => t.nodes[slot]?.map fun n => some n.deadline
  | none => some none

theorem deadline_eq (h : t.Indexed) (id : Nat) : deadline t id = some (t.deadline? id) := by
  unfold deadline deadline? find?
  cases hs : t.slots[id]? with
  | some slot =>
      obtain ⟨n, hn, -⟩ := h.nodes_eq hs
      simp only [Option.bind_some, hn]
      rfl
  | none => rfl

end Strict

end TimerHeap

end HttpServer
