import Std.Data.HashMap

/-!
# Timers by deadline

Timers stand in a binary heap, the earliest deadline at the root: the timer at slot `i` is due no
later than those at slots `2 * i + 1` and `2 * i + 2`. Beside the heap an index tells the slot of
every timer by its id, so that a timer can be moved or removed without searching for it.

There is at most one timer for an id. A timer whose deadline was changed is moved down, and if it
does not move, up. Removing one puts the last timer in its slot and moves that. Timers with equal
deadlines fire in the order that these moves leave.
-/

namespace HttpServer

/-- A deadline, with what to do when it passes. -/
structure Timer (α : Type) where
  id : Nat
  deadline : Nat
  action : α
deriving DecidableEq, Repr

/-- Timers in heap order, with the slot of each id. -/
structure TimerHeap (α : Type) where
  nodes : Array (Timer α)
  slots : Std.HashMap Nat Nat

namespace TimerHeap

variable {α : Type}

/-- No timers. -/
def empty : TimerHeap α := ⟨#[], ∅⟩

instance : Inhabited (TimerHeap α) := ⟨empty⟩

/-- The number of timers. -/
def size (t : TimerHeap α) : Nat := t.nodes.size

/-- There are no timers. -/
def isEmpty (t : TimerHeap α) : Bool := t.size == 0

/-- There is a timer for an id. -/
def contains (t : TimerHeap α) (id : Nat) : Bool := t.slots.contains id

/-- The timer for an id. -/
def find? (t : TimerHeap α) (id : Nat) : Option (Timer α) :=
  t.slots[id]?.bind fun slot => t.nodes[slot]?

/-- The deadline set for an id. -/
def deadline? (t : TimerHeap α) (id : Nat) : Option Nat :=
  (t.find? id).map Timer.deadline

/-- The slot above a slot. -/
def parent (slot : Nat) : Nat := (slot - 1) / 2

/-- The first of the two slots below a slot. -/
def leftChild (slot : Nat) : Nat := 2 * slot + 1

/-- The timer at slot `a` is due no later than the one at slot `b`, if both slots are taken. -/
def dueBy (t : TimerHeap α) (a b : Nat) : Bool :=
  match t.nodes[a]?, t.nodes[b]? with
  | some x, some y => x.deadline ≤ y.deadline
  | _, _ => true

/-- Notes the slot at which a timer stands. -/
def note (t : TimerHeap α) (slot : Nat) : TimerHeap α :=
  match t.nodes[slot]? with
  | some n => { t with slots := t.slots.insert n.id slot }
  | none => t

/-- Exchanges the timers at two slots. -/
def swap (t : TimerHeap α) (a b : Nat) : TimerHeap α :=
  ({ t with nodes := t.nodes.swapIfInBounds a b }.note a).note b

@[simp] theorem size_note (t : TimerHeap α) (slot : Nat) : (t.note slot).size = t.size := by
  unfold note
  split <;> rfl

@[simp] theorem size_swap (t : TimerHeap α) (a b : Nat) : (t.swap a b).size = t.size := by
  simp [swap, size]
  unfold note
  split <;> (split <;> simp)

/-- Moves the timer at a slot up while its parent is due later. -/
def siftUp (t : TimerHeap α) (slot : Nat) : TimerHeap α :=
  if slot = 0 then t
  else if t.dueBy (parent slot) slot then t
  else (t.swap slot (parent slot)).siftUp (parent slot)
termination_by slot
decreasing_by
  simp only [parent]
  omega

/-- The slot below `slot` whose timer is due first, the left one of two that are due together. -/
def earlierChild (t : TimerHeap α) (slot : Nat) : Nat :=
  if leftChild slot + 1 < t.size ∧ !t.dueBy (leftChild slot) (leftChild slot + 1) then
    leftChild slot + 1
  else leftChild slot

theorem lt_earlierChild (t : TimerHeap α) (slot : Nat) : slot < t.earlierChild slot := by
  unfold earlierChild leftChild
  split <;> omega

theorem earlierChild_lt {t : TimerHeap α} {slot : Nat} (h : leftChild slot < t.size) :
    t.earlierChild slot < t.size := by
  unfold earlierChild
  split <;> omega

/-- Moves the timer at a slot down while one below it is due earlier. The answer names the slot at
which it comes to rest. -/
def siftDown (t : TimerHeap α) (slot : Nat) : TimerHeap α × Nat :=
  if leftChild slot < t.size then
    if t.dueBy slot (t.earlierChild slot) then (t, slot)
    else (t.swap slot (t.earlierChild slot)).siftDown (t.earlierChild slot)
  else (t, slot)
termination_by t.size - slot
decreasing_by
  have := lt_earlierChild t slot
  rename_i h _
  have := earlierChild_lt h
  simp only [size_swap]
  omega

/-- Puts the timer at a slot where it belongs. -/
def reposition (t : TimerHeap α) (slot : Nat) : TimerHeap α :=
  let (moved, rest) := t.siftDown slot
  if slot < rest then moved else moved.siftUp slot

@[simp] theorem size_siftUp (t : TimerHeap α) (slot : Nat) : (t.siftUp slot).size = t.size := by
  fun_induction siftUp t slot with
  | case1 => rfl
  | case2 => rfl
  | case3 t slot _ _ ih => rw [ih, size_swap]

@[simp] theorem size_siftDown (t : TimerHeap α) (slot : Nat) :
    (t.siftDown slot).1.size = t.size := by
  fun_induction siftDown t slot with
  | case1 => rfl
  | case2 t slot _ _ ih => rw [ih, size_swap]
  | case3 => rfl

@[simp] theorem size_reposition (t : TimerHeap α) (slot : Nat) :
    (t.reposition slot).size = t.size := by
  simp only [reposition]
  split <;> simp

/-- Takes the timer at a slot out. -/
def removeAt? (t : TimerHeap α) (slot : Nat) : Option (Timer α × TimerHeap α) :=
  match t.nodes[slot]? with
  | none => none
  | some n =>
    let rest : TimerHeap α :=
      ⟨(t.nodes.swapIfInBounds slot (t.size - 1)).pop, t.slots.erase n.id⟩
    some (n, if slot < rest.size then (rest.note slot).reposition slot else rest)

theorem size_removeAt? {t r : TimerHeap α} {slot : Nat} {n : Timer α}
    (h : t.removeAt? slot = some (n, r)) : r.size + 1 = t.size := by
  unfold removeAt? at h
  split at h
  · simp at h
  · rename_i m hm
    have hlt : slot < t.nodes.size := (Array.getElem?_eq_some_iff.1 hm).1
    simp only [Option.some.injEq, Prod.mk.injEq] at h
    obtain ⟨-, rfl⟩ := h
    have hs : ((t.nodes.swapIfInBounds slot (t.size - 1)).pop).size + 1 = t.size := by
      simp only [size, Array.size_pop, Array.size_swapIfInBounds]
      omega
    split
    · rw [size_reposition, size_note]
      exact hs
    · exact hs

/-- Sets a timer, in place of the one for that id. -/
def scheduleAt (t : TimerHeap α) (id deadline : Nat) (action : α) : TimerHeap α :=
  match t.slots[id]? with
  | some slot =>
    { t with nodes := t.nodes.setIfInBounds slot ⟨id, deadline, action⟩ }.reposition slot
  | none =>
    let slot := t.size
    TimerHeap.siftUp ⟨t.nodes.push ⟨id, deadline, action⟩, t.slots.insert id slot⟩ slot

/-- Sets a timer for `delay` after `now`. -/
def schedule (t : TimerHeap α) (now id delay : Nat) (action : α) : TimerHeap α :=
  t.scheduleAt id (now + delay) action

/-- Moves the deadline for an id and says whether there is one. -/
def adjustTo (t : TimerHeap α) (id deadline : Nat) : Bool × TimerHeap α :=
  match t.slots[id]? with
  | some slot =>
    let nodes := t.nodes.modify slot fun n => { n with deadline := deadline }
    (true, { t with nodes := nodes }.reposition slot)
  | none => (false, t)

/-- Moves the deadline for an id to `delay` after `now`, and says whether there is one. -/
def adjust (t : TimerHeap α) (now id delay : Nat) : Bool × TimerHeap α :=
  t.adjustTo id (now + delay)

/-- Takes the timer for an id out. -/
def take? (t : TimerHeap α) (id : Nat) : Option (Timer α × TimerHeap α) :=
  t.slots[id]?.bind t.removeAt?

/-- Takes the timer for an id out, silently, and says whether there was one. -/
def remove (t : TimerHeap α) (id : Nat) : Bool × TimerHeap α :=
  match t.take? id with
  | some (_, rest) => (true, rest)
  | none => (false, t)

/-- Takes the timer for an id out and hands over its action, to be run as if it had expired. -/
def cancel (t : TimerHeap α) (id : Nat) : Option α × TimerHeap α :=
  match t.take? id with
  | some (n, rest) => (some n.action, rest)
  | none => (none, t)

/-- Takes the first timer out, if it is due at `now`. -/
def popDue? (t : TimerHeap α) (now : Nat) : Option (Timer α × TimerHeap α) :=
  match t.nodes[0]? with
  | none => none
  | some root => if now < root.deadline then none else t.removeAt? 0

/-- Takes out every timer that is due at `now`, in the order in which they fire. -/
def fireDue (t : TimerHeap α) (now : Nat) : List (Timer α) × TimerHeap α :=
  match t.nodes[0]? with
  | none => ([], t)
  | some root =>
    if now < root.deadline then ([], t)
    else
      match h : t.removeAt? 0 with
      | none => ([], t)
      | some (n, rest) =>
        have : rest.size < t.size := by
          have := size_removeAt? h
          omega
        let (fired, rest) := rest.fireDue now
        (n :: fired, rest)
termination_by t.size

theorem fireDue_of_popDue?_eq_none {t : TimerHeap α} {now : Nat} (h : t.popDue? now = none) :
    t.fireDue now = ([], t) := by
  unfold popDue? at h
  rw [fireDue]
  split
  · rfl
  · rename_i root hroot
    rw [hroot] at h
    simp only at h
    split at h
    · rename_i hlt
      rw [if_pos hlt]
    · rename_i hlt
      rw [if_neg hlt]
      split
      · rfl
      · rename_i n rest hn
        rw [hn] at h
        cases h

theorem fireDue_of_popDue?_eq_some {t rest : TimerHeap α} {now : Nat} {n : Timer α}
    (h : t.popDue? now = some (n, rest)) :
    t.fireDue now = (n :: (rest.fireDue now).1, (rest.fireDue now).2) := by
  unfold popDue? at h
  rw [fireDue]
  split
  · rename_i hroot
    rw [hroot] at h
    cases h
  · rename_i root hroot
    rw [hroot] at h
    simp only at h
    split at h
    · cases h
    · rename_i hlt
      rw [if_neg hlt]
      split
      · rename_i hn
        rw [hn] at h
        cases h
      · rename_i m s hm
        rw [hm] at h
        cases h
        rfl

/-- Fires what is due at `now`, and tells the time until the next deadline. -/
def nextWait (t : TimerHeap α) (now : Nat) : List (Timer α) × Option Nat × TimerHeap α :=
  let (fired, rest) := t.fireDue now
  (fired, rest.nodes[0]?.map fun n => n.deadline - now, rest)

/-- Takes every timer out, silently. -/
def clear (_ : TimerHeap α) : TimerHeap α := empty

/-- The text that shows a heap: the number of timers and the earliest deadline. -/
def describe (t : TimerHeap α) (showDeadline : Option Nat → String) : String :=
  "TimerHeap \x7b len: " ++ toString t.size ++ ", next_deadline: " ++
    showDeadline (t.nodes[0]?.map Timer.deadline) ++ " \x7d"

end TimerHeap

end HttpServer
