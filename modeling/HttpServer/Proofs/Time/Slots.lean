import HttpServer.Time.TimerHeap
import Mathlib.Logic.Equiv.Basic

/-!
# Timers and their slots

The index of a heap names the slot of every timer, and nothing else; so there is at most one timer
for an id. An exchange of two slots is the transposition of the two, in the nodes as well as in the
index. Sifting is a sequence of exchanges: it changes only where the timers stand.
-/

namespace HttpServer

namespace TimerHeap

variable {α : Type} {s t u : TimerHeap α} {a b slot : Nat}

theorem getElem?_insert_of_ne (slots : Std.HashMap Nat Nat) {k id : Nat} (h : k ≠ id) (v : Nat) :
    (slots.insert k v)[id]? = slots[id]? := by
  rw [Std.HashMap.getElem?_insert, if_neg (fun heq => h (beq_iff_eq.1 heq))]

theorem getElem?_erase_of_ne (slots : Std.HashMap Nat Nat) {k id : Nat} (h : k ≠ id) :
    (slots.erase k)[id]? = slots[id]? := by
  rw [Std.HashMap.getElem?_erase, if_neg (fun heq => h (beq_iff_eq.1 heq))]

/-- The index is the inverse of the slots of the timers. -/
def Indexed (t : TimerHeap α) : Prop :=
  ∀ id slot, t.slots[id]? = some slot ↔ ∃ n : Timer α, t.nodes[slot]? = some n ∧ n.id = id

theorem indexed_empty : (empty : TimerHeap α).Indexed := by
  intro id slot
  simp [empty]

namespace Indexed

theorem slots_eq (h : t.Indexed) {n : Timer α} (hn : t.nodes[slot]? = some n) :
    t.slots[n.id]? = some slot :=
  (h n.id slot).2 ⟨n, hn, rfl⟩

theorem nodes_eq (h : t.Indexed) {id : Nat} (hs : t.slots[id]? = some slot) :
    ∃ n, t.nodes[slot]? = some n ∧ n.id = id :=
  (h id slot).1 hs

/-- Two timers with one id stand at one slot. -/
theorem slot_inj (h : t.Indexed) {x y : Timer α} (hx : t.nodes[a]? = some x)
    (hy : t.nodes[b]? = some y) (hid : x.id = y.id) : a = b := by
  have ha := h.slots_eq hx
  rw [hid, h.slots_eq hy] at ha
  exact (Option.some.inj ha).symm

/-- Only the entries of an index matter. -/
theorem of_slots_eq (h : t.Indexed) (hnodes : s.nodes = t.nodes)
    (hslots : ∀ id : Nat, s.slots[id]? = t.slots[id]?) : s.Indexed := by
  intro id slot
  rw [hslots, hnodes]
  exact h id slot

end Indexed

theorem lt_size_of_nodes_eq {n : Timer α} (h : t.nodes[slot]? = some n) : slot < t.size :=
  (Array.getElem?_eq_some_iff.1 h).1

theorem exists_nodes_eq (h : slot < t.size) : ∃ n, t.nodes[slot]? = some n :=
  ⟨t.nodes[slot], Array.getElem?_eq_getElem h⟩

@[simp] theorem nodes_note (t : TimerHeap α) (slot : Nat) : (t.note slot).nodes = t.nodes := by
  unfold note
  split <;> rfl

@[simp] theorem nodes_swap (t : TimerHeap α) (a b : Nat) :
    (t.swap a b).nodes = t.nodes.swapIfInBounds a b := by
  unfold swap
  rw [nodes_note, nodes_note]

theorem slots_note {n : Timer α} (h : t.nodes[slot]? = some n) :
    (t.note slot).slots = t.slots.insert n.id slot := by
  unfold note
  rw [h]

theorem nodes_swap_of_lt (t : TimerHeap α) (ha : a < t.nodes.size) (hb : b < t.nodes.size) :
    (t.swap a b).nodes = t.nodes.swap a b ha hb := by
  rw [nodes_swap, Array.swapIfInBounds_def, dif_pos ha, dif_pos hb]

/-- An exchange transposes the two slots. -/
theorem getElem?_nodes_swap (t : TimerHeap α) (ha : a < t.size) (hb : b < t.size) (i : Nat) :
    (t.swap a b).nodes[i]? = t.nodes[Equiv.swap a b i]? := by
  change a < t.nodes.size at ha
  change b < t.nodes.size at hb
  rw [nodes_swap_of_lt t ha hb, Array.getElem?_swap, Equiv.swap_apply_def]
  by_cases hia : i = a
  · rw [if_pos hia, hia]
    split
    · rename_i hba
      rw [hba]
      exact (Array.getElem?_eq_getElem ha).symm
    · rw [if_pos rfl]
      exact (Array.getElem?_eq_getElem hb).symm
  · rw [if_neg hia, if_neg (Ne.symm hia)]
    by_cases hib : i = b
    · rw [if_pos hib, if_pos hib.symm]
      exact (Array.getElem?_eq_getElem ha).symm
    · rw [if_neg hib, if_neg (Ne.symm hib)]

theorem slots_swap {x y : Timer α} (hx : t.nodes[a]? = some x) (hy : t.nodes[b]? = some y) :
    (t.swap a b).slots = (t.slots.insert y.id a).insert x.id b := by
  have ha := lt_size_of_nodes_eq hx
  have hb := lt_size_of_nodes_eq hy
  have hnodes (i : Nat) : (t.nodes.swapIfInBounds a b)[i]? = t.nodes[Equiv.swap a b i]? := by
    rw [← nodes_swap]
    exact getElem?_nodes_swap t ha hb i
  unfold swap
  rw [slots_note, slots_note]
  · rw [hnodes, Equiv.swap_apply_left]
    exact hy
  · rw [nodes_note, hnodes, Equiv.swap_apply_right]
    exact hx

/-- In the index, too, an exchange transposes the two slots. -/
theorem Indexed.getElem?_slots_swap (h : t.Indexed) (ha : a < t.size) (hb : b < t.size) (id : Nat) :
    (t.swap a b).slots[id]? = (t.slots[id]?).map (Equiv.swap a b) := by
  obtain ⟨x, hx⟩ := exists_nodes_eq ha
  obtain ⟨y, hy⟩ := exists_nodes_eq hb
  rw [slots_swap hx hy]
  by_cases hxid : x.id = id
  · rw [← hxid, Std.HashMap.getElem?_insert_self, h.slots_eq hx, Option.map_some,
      Equiv.swap_apply_left]
  · rw [getElem?_insert_of_ne _ hxid]
    by_cases hyid : y.id = id
    · rw [← hyid, Std.HashMap.getElem?_insert_self, h.slots_eq hy, Option.map_some,
        Equiv.swap_apply_right]
    · rw [getElem?_insert_of_ne _ hyid]
      cases hs : t.slots[id]? with
      | none => rfl
      | some k =>
          obtain ⟨n, hn, hid⟩ := h.nodes_eq hs
          have hka : k ≠ a := by
            rintro rfl
            rw [hx] at hn
            exact hxid (Option.some.inj hn ▸ hid)
          have hkb : k ≠ b := by
            rintro rfl
            rw [hy] at hn
            exact hyid (Option.some.inj hn ▸ hid)
          rw [Option.map_some, Equiv.swap_apply_of_ne_of_ne hka hkb]

theorem Indexed.swap (h : t.Indexed) (ha : a < t.size) (hb : b < t.size) :
    (t.swap a b).Indexed := by
  intro id slot
  rw [h.getElem?_slots_swap ha hb, getElem?_nodes_swap t ha hb, ← h id, Option.map_eq_some_iff]
  constructor
  · rintro ⟨k, hk, rfl⟩
    rw [Equiv.swap_apply_self]
    exact hk
  · intro hs
    exact ⟨_, hs, Equiv.swap_apply_self a b slot⟩

/-- The same timers, in other places. -/
structure Rearranged (t s : TimerHeap α) : Prop where
  perm : s.nodes.toList.Perm t.nodes.toList
  indexed : t.Indexed → s.Indexed

namespace Rearranged

theorem refl (t : TimerHeap α) : Rearranged t t :=
  ⟨List.Perm.refl _, fun h => h⟩

theorem trans (h : Rearranged t s) (h' : Rearranged s u) : Rearranged t u :=
  ⟨h'.perm.trans h.perm, fun ht => h'.indexed (h.indexed ht)⟩

theorem mem_iff (h : Rearranged t s) (n : Timer α) : n ∈ s.nodes ↔ n ∈ t.nodes := by
  rw [← Array.mem_toList_iff, ← Array.mem_toList_iff]
  exact h.perm.mem_iff

end Rearranged

theorem rearranged_swap (t : TimerHeap α) (ha : a < t.size) (hb : b < t.size) :
    Rearranged t (t.swap a b) := by
  refine ⟨?_, fun h => h.swap ha hb⟩
  rw [nodes_swap_of_lt t ha hb]
  exact (Array.swap_perm ha hb).toList

/-- Timers of which one is due before the other stand at slots that are taken. -/
theorem of_dueBy_eq_false (h : t.dueBy a b = false) :
    ∃ x y, t.nodes[a]? = some x ∧ t.nodes[b]? = some y ∧ y.deadline < x.deadline := by
  unfold dueBy at h
  split at h
  · rename_i x y hx hy
    exact ⟨x, y, hx, hy, Nat.not_le.1 (of_decide_eq_false h)⟩
  · cases h

theorem rearranged_swap_of_dueBy (h : t.dueBy a b = false) : Rearranged t (t.swap a b) := by
  obtain ⟨x, y, hx, hy, -⟩ := of_dueBy_eq_false h
  exact rearranged_swap t (lt_size_of_nodes_eq hx) (lt_size_of_nodes_eq hy)

theorem rearranged_siftUp (t : TimerHeap α) (slot : Nat) : Rearranged t (t.siftUp slot) := by
  fun_induction siftUp t slot with
  | case1 => exact Rearranged.refl _
  | case2 => exact Rearranged.refl _
  | case3 t slot _ hdue ih =>
      obtain ⟨x, y, hx, hy, -⟩ := of_dueBy_eq_false (Bool.not_eq_true _ ▸ hdue)
      exact (rearranged_swap t (lt_size_of_nodes_eq hy) (lt_size_of_nodes_eq hx)).trans ih

theorem rearranged_siftDown (t : TimerHeap α) (slot : Nat) :
    Rearranged t (t.siftDown slot).1 := by
  fun_induction siftDown t slot with
  | case1 => exact Rearranged.refl _
  | case2 t slot _ hdue ih =>
      exact (rearranged_swap_of_dueBy (Bool.not_eq_true _ ▸ hdue)).trans ih
  | case3 => exact Rearranged.refl _

theorem reposition_eq (t : TimerHeap α) (slot : Nat) :
    t.reposition slot =
      if slot < (t.siftDown slot).2 then (t.siftDown slot).1
      else (t.siftDown slot).1.siftUp slot := rfl

theorem rearranged_reposition (t : TimerHeap α) (slot : Nat) :
    Rearranged t (t.reposition slot) := by
  rw [reposition_eq]
  split
  · exact rearranged_siftDown t slot
  · exact (rearranged_siftDown t slot).trans (rearranged_siftUp _ slot)

/-- A new timer behind the last slot. -/
theorem Indexed.push (h : t.Indexed) {n : Timer α} (hfresh : t.slots[n.id]? = none) :
    Indexed ⟨t.nodes.push n, t.slots.insert n.id t.size⟩ := by
  intro id slot
  simp only
  rw [Array.getElem?_push]
  by_cases hslot : slot = t.nodes.size
  · rw [if_pos hslot]
    by_cases hid : n.id = id
    · rw [← hid, Std.HashMap.getElem?_insert_self]
      exact ⟨fun _ => ⟨n, rfl, rfl⟩, fun _ => congrArg some hslot.symm⟩
    · rw [getElem?_insert_of_ne _ hid, h id]
      constructor
      · rintro ⟨m, hm, -⟩
        exact absurd (lt_size_of_nodes_eq hm) (hslot ▸ Nat.lt_irrefl _)
      · rintro ⟨m, hm, hmid⟩
        exact absurd (Option.some.inj hm ▸ hmid) hid
  · rw [if_neg hslot]
    by_cases hid : n.id = id
    · rw [← hid, Std.HashMap.getElem?_insert_self]
      constructor
      · intro hs
        exact absurd (Option.some.inj hs).symm hslot
      · intro hm
        rw [← h n.id, hfresh] at hm
        cases hm
    · rw [getElem?_insert_of_ne _ hid]
      exact h id slot

/-- Another timer with the same id in its slot. -/
theorem Indexed.set (h : t.Indexed) {n m : Timer α} (hn : t.nodes[slot]? = some n)
    (hid : m.id = n.id) : Indexed { t with nodes := t.nodes.setIfInBounds slot m } := by
  intro id i
  simp only
  rw [h id, Array.getElem?_setIfInBounds]
  by_cases hi : slot = i
  · have hlt : slot < t.nodes.size := lt_size_of_nodes_eq hn
    rw [if_pos hi, if_pos hlt, ← hi, hn]
    constructor
    · rintro ⟨k, hk, hkid⟩
      cases hk
      exact ⟨m, rfl, hid.trans hkid⟩
    · rintro ⟨k, hk, hkid⟩
      cases hk
      exact ⟨n, rfl, hid.symm.trans hkid⟩
  · rw [if_neg hi]

/-- Without the timer at the last slot. -/
theorem Indexed.pop (h : t.Indexed) {n : Timer α} (hn : t.nodes[t.nodes.size - 1]? = some n) :
    Indexed ⟨t.nodes.pop, t.slots.erase n.id⟩ := by
  intro id slot
  simp only
  rw [Array.getElem?_pop]
  by_cases hid : n.id = id
  · rw [← hid, Std.HashMap.getElem?_erase_self]
    constructor
    · intro hs
      cases hs
    · rintro ⟨m, hm, hmid⟩
      split at hm
      · have := h.slot_inj hm hn hmid
        omega
      · cases hm
  · rw [getElem?_erase_of_ne _ hid, h id]
    split
    · rfl
    · rename_i hslot
      constructor
      · rintro ⟨m, hm, hmid⟩
        have hlt := lt_size_of_nodes_eq hm
        have heq : slot = t.nodes.size - 1 := by
          unfold size at hlt
          omega
        rw [heq, hn] at hm
        exact absurd (Option.some.inj hm ▸ hmid) hid
      · rintro ⟨m, hm, -⟩
        cases hm

/-- The heap without a timer, whose slot the last one takes before the index says so. -/
def cut (t : TimerHeap α) (slot : Nat) (n : Timer α) : TimerHeap α :=
  ⟨(t.nodes.swapIfInBounds slot (t.size - 1)).pop, t.slots.erase n.id⟩

/-- The heap without a timer, whose slot the last one takes. -/
def vacate (t : TimerHeap α) (slot : Nat) (n : Timer α) : TimerHeap α :=
  if slot < t.size - 1 then (t.cut slot n).note slot else t.cut slot n

@[simp] theorem size_cut (t : TimerHeap α) (slot : Nat) (n : Timer α) :
    (t.cut slot n).size = t.size - 1 := by
  unfold cut size
  rw [Array.size_pop, Array.size_swapIfInBounds]

theorem nodes_cut (t : TimerHeap α) (slot : Nat) (n : Timer α) :
    (t.cut slot n).nodes = (t.swap slot (t.size - 1)).nodes.pop := by
  rw [nodes_swap]
  rfl

theorem nodes_vacate (t : TimerHeap α) (slot : Nat) (n : Timer α) :
    (t.vacate slot n).nodes = (t.swap slot (t.size - 1)).nodes.pop := by
  unfold vacate
  rw [← nodes_cut t slot n]
  split
  · exact nodes_note _ _
  · rfl

@[simp] theorem size_vacate (t : TimerHeap α) (slot : Nat) (n : Timer α) :
    (t.vacate slot n).size = t.size - 1 := by
  unfold vacate
  split
  · rw [size_note, size_cut]
  · exact size_cut t slot n

theorem removeAt?_eq {n : Timer α} (hn : t.nodes[slot]? = some n) :
    t.removeAt? slot =
      some (n, if slot < t.size - 1 then (t.vacate slot n).reposition slot
        else t.vacate slot n) := by
  unfold removeAt?
  rw [hn]
  change some (n, if slot < (t.cut slot n).size then ((t.cut slot n).note slot).reposition slot
    else t.cut slot n) = _
  simp only [size_cut]
  unfold vacate
  split
  · rfl
  · rfl

/-- The index is the one behind an exchange with the last slot, without the id. -/
theorem slots_vacate (h : t.Indexed) {n m : Timer α} (hn : t.nodes[slot]? = some n)
    (hm : t.nodes[t.size - 1]? = some m) (id : Nat) :
    (t.vacate slot n).slots[id]? =
      ((t.swap slot (t.size - 1)).slots.erase n.id)[id]? := by
  have hslot := lt_size_of_nodes_eq hn
  rw [slots_swap hn hm]
  unfold vacate
  split
  · rename_i hlt
    have hne : m.id ≠ n.id := by
      intro hid
      have := h.slot_inj hm hn hid
      omega
    have hmoved : (t.cut slot n).nodes[slot]? = some m := by
      rw [nodes_cut, Array.getElem?_pop, getElem?_nodes_swap t hslot (by omega),
        Equiv.swap_apply_left, nodes_swap, Array.size_swapIfInBounds]
      exact (if_pos hlt).trans hm
    rw [slots_note hmoved]
    change ((t.slots.erase n.id).insert m.id slot)[id]? = _
    by_cases hid : n.id = id
    · rw [← hid, getElem?_insert_of_ne _ hne, Std.HashMap.getElem?_erase_self,
        Std.HashMap.getElem?_erase_self]
    · rw [getElem?_erase_of_ne _ hid, getElem?_insert_of_ne _ hid]
      by_cases hmid : m.id = id
      · rw [← hmid, Std.HashMap.getElem?_insert_self, Std.HashMap.getElem?_insert_self]
      · rw [getElem?_insert_of_ne _ hmid, getElem?_insert_of_ne _ hmid,
          getElem?_erase_of_ne _ hid]
  · -- the timer stands last itself, and the exchange is with its own slot
    rename_i hlt
    have heq : slot = t.size - 1 := by omega
    rw [← heq, hn] at hm
    cases hm
    change (t.slots.erase n.id)[id]? = _
    by_cases hid : n.id = id
    · rw [← hid, Std.HashMap.getElem?_erase_self, Std.HashMap.getElem?_erase_self]
    · rw [getElem?_erase_of_ne _ hid, getElem?_erase_of_ne _ hid, getElem?_insert_of_ne _ hid,
        getElem?_insert_of_ne _ hid]

/-- The timer that is taken out stands last after the exchange. -/
theorem last_swap {n : Timer α} (hn : t.nodes[slot]? = some n) :
    (t.swap slot (t.size - 1)).nodes[(t.swap slot (t.size - 1)).size - 1]? = some n := by
  have hslot := lt_size_of_nodes_eq hn
  rw [size_swap, getElem?_nodes_swap t hslot (by omega), Equiv.swap_apply_right]
  exact hn

theorem indexed_vacate (h : t.Indexed) {n : Timer α} (hn : t.nodes[slot]? = some n) :
    (t.vacate slot n).Indexed := by
  have hslot := lt_size_of_nodes_eq hn
  have hlast : t.size - 1 < t.size := by omega
  obtain ⟨m, hm⟩ := exists_nodes_eq hlast
  refine ((h.swap hslot hlast).pop (last_swap hn)).of_slots_eq (nodes_vacate t slot n) ?_
  exact slots_vacate h hn hm

/-- What is left, and the timer that was taken out, are the timers from before. -/
theorem perm_vacate {n : Timer α} (hn : t.nodes[slot]? = some n) :
    (n :: (t.vacate slot n).nodes.toList).Perm t.nodes.toList := by
  have hslot := lt_size_of_nodes_eq hn
  obtain ⟨rest, last, hpush⟩ := Array.eq_push_of_size_ne_zero
    (show (t.swap slot (t.size - 1)).nodes.size ≠ 0 by
      rw [nodes_swap, Array.size_swapIfInBounds]
      exact Nat.ne_of_gt (Nat.lt_of_le_of_lt (Nat.zero_le slot) hslot))
  have hlast : last = n := by
    have h := last_swap hn
    change (t.swap slot (t.size - 1)).nodes[(t.swap slot (t.size - 1)).nodes.size - 1]? = some n
      at h
    rw [hpush, Array.size_push, Nat.add_sub_cancel, Array.getElem?_push_size] at h
    exact Option.some.inj h
  have hmoved : t.size - 1 < t.size := by omega
  rw [nodes_vacate]
  refine List.Perm.trans ?_ (rearranged_swap t hslot hmoved).perm
  rw [hpush, hlast, Array.pop_push, Array.toList_push]
  exact (List.perm_append_singleton n rest.toList).symm

end TimerHeap

end HttpServer
