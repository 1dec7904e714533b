import HttpServer.Proofs.Time.Order
import Mathlib.Data.List.Nodup

/-!
# What each operation does to the timers of a consistent heap

A heap is consistent if its index names the slot of every timer and its timers are in order. Then
there is at most one timer for an id, and `find?` finds it. Every operation keeps a heap consistent,
and changes what is found only under the ids that it is about.
-/

namespace HttpServer

namespace TimerHeap

variable {α : Type} {s t : TimerHeap α} {slot : Nat}

/-- The index is right, and the timers are in order. -/
structure Consistent (t : TimerHeap α) : Prop where
  indexed : t.Indexed
  ordered : t.Ordered

theorem consistent_empty : (empty : TimerHeap α).Consistent :=
  ⟨indexed_empty, fun _ _ => rfl⟩

theorem find?_empty (id : Nat) : (empty : TimerHeap α).find? id = none := by
  rw [find?, empty, Std.HashMap.getElem?_empty]
  rfl

theorem mem_nodes_iff {n : Timer α} : n ∈ t.nodes ↔ ∃ slot : Nat, t.nodes[slot]? = some n :=
  Array.mem_iff_getElem?

theorem Indexed.find?_eq_some_iff (h : t.Indexed) {id : Nat} {n : Timer α} :
    t.find? id = some n ↔ n ∈ t.nodes ∧ n.id = id := by
  unfold find?
  rw [Option.bind_eq_some_iff, mem_nodes_iff]
  constructor
  · rintro ⟨slot, hs, hn⟩
    obtain ⟨m, hm, hid⟩ := h.nodes_eq hs
    rw [hn] at hm
    cases hm
    exact ⟨⟨slot, hn⟩, hid⟩
  · rintro ⟨⟨slot, hn⟩, rfl⟩
    exact ⟨slot, h.slots_eq hn, hn⟩

theorem Indexed.find?_eq_none_iff (h : t.Indexed) {id : Nat} :
    t.find? id = none ↔ t.slots[id]? = none := by
  unfold find?
  constructor
  · intro hnone
    cases hs : t.slots[id]? with
    | none => rfl
    | some slot =>
        obtain ⟨n, hn, -⟩ := h.nodes_eq hs
        rw [hs, Option.bind_some, hn] at hnone
        cases hnone
  · intro hs
    rw [hs]
    rfl

/-- The ids of the timers are distinct. -/
theorem Indexed.nodup_ids (h : t.Indexed) : (t.nodes.toList.map Timer.id).Nodup := by
  rw [List.nodup_iff_pairwise_ne, List.pairwise_map, List.pairwise_iff_getElem]
  intro i j hi hj hij hid
  have hslots : i = j :=
    h.slot_inj (Array.getElem?_eq_getElem hi) (Array.getElem?_eq_getElem hj) hid
  omega

/-- Where the timers stand does not matter for what is found. -/
theorem Rearranged.find?_eq (h : Rearranged t s) (ht : t.Indexed) : s.find? = t.find? := by
  funext id
  ext n
  rw [(h.indexed ht).find?_eq_some_iff, ht.find?_eq_some_iff, h.mem_iff]

theorem consistent_reposition (h : t.Indexed) (ho : t.OrderedBut slot) :
    (t.reposition slot).Consistent ∧ (t.reposition slot).find? = t.find? :=
  ⟨⟨(rearranged_reposition t slot).indexed h, ho.reposition⟩,
    (rearranged_reposition t slot).find?_eq h⟩

section Set

/-- Another deadline or action for a timer. -/
theorem find?_set (h : t.Indexed) {n m : Timer α} (hn : t.nodes[slot]? = some n)
    (hid : m.id = n.id) :
    ({ t with nodes := t.nodes.setIfInBounds slot m } : TimerHeap α).find? =
      Function.update t.find? m.id (some m) := by
  have hlt : slot < t.nodes.size := lt_size_of_nodes_eq hn
  funext id
  unfold find?
  simp only
  by_cases hmid : id = m.id
  · rw [hmid, Function.update_self, hid, h.slots_eq hn, Option.bind_some,
      Array.getElem?_setIfInBounds_self_of_lt hlt]
  · rw [Function.update_of_ne hmid]
    cases hs : t.slots[id]? with
    | none => rfl
    | some k =>
        have hk : slot ≠ k := by
          rintro rfl
          obtain ⟨m', hm', hid'⟩ := h.nodes_eq hs
          rw [hn] at hm'
          cases hm'
          exact hmid (hid'.symm.trans hid.symm)
        rw [Option.bind_some, Option.bind_some, Array.getElem?_setIfInBounds_ne hk]

theorem consistent_set (h : t.Consistent) {n m : Timer α} (hn : t.nodes[slot]? = some n)
    (hid : m.id = n.id) :
    (({ t with nodes := t.nodes.setIfInBounds slot m } : TimerHeap α).reposition slot).Consistent ∧
      (({ t with nodes := t.nodes.setIfInBounds slot m } : TimerHeap α).reposition slot).find? =
        Function.update t.find? m.id (some m) := by
  rw [← find?_set h.indexed hn hid]
  apply consistent_reposition
  · exact h.indexed.set hn hid
  · apply (h.ordered.orderedBut slot).of_nodes
    intro k x hk hx
    rw [← Array.getElem?_setIfInBounds_ne (Ne.symm hk)]
    exact hx

end Set

section Schedule

/-- A new timer behind the last slot. -/
theorem find?_push (h : t.Indexed) (n : Timer α) :
    (⟨t.nodes.push n, t.slots.insert n.id t.size⟩ : TimerHeap α).find? =
      Function.update t.find? n.id (some n) := by
  funext id
  unfold find?
  simp only
  by_cases hid : id = n.id
  · rw [hid, Std.HashMap.getElem?_insert_self, Function.update_self, Option.bind_some]
    exact Array.getElem?_push_size
  · rw [getElem?_insert_of_ne _ (Ne.symm hid), Function.update_of_ne hid]
    cases hs : t.slots[id]? with
    | none => rfl
    | some k =>
        obtain ⟨m, hm, -⟩ := h.nodes_eq hs
        have hk : k ≠ t.nodes.size := Nat.ne_of_lt (lt_size_of_nodes_eq hm)
        rw [Option.bind_some, Option.bind_some, Array.getElem?_push, if_neg hk]

theorem orderedBut_push (h : t.Ordered) (n : Timer α) (slots : Std.HashMap Nat Nat) :
    OrderedBut ⟨t.nodes.push n, slots⟩ t.size := by
  apply (h.orderedBut t.size).of_nodes
  intro k x hk hx
  change k ≠ t.nodes.size at hk
  rw [Array.getElem?_push, if_neg hk] at hx
  exact hx

/-- Nothing is below the last slot. -/
theorem orderedBelow_push (t : TimerHeap α) (n : Timer α) (slots : Std.HashMap Nat Nat) :
    OrderedBelow ⟨t.nodes.push n, slots⟩ t.size := by
  intro j hj hp
  have hpj := parent_lt hj
  apply dueBy_of_size_le
  change (t.nodes.push n).size ≤ j
  rw [Array.size_push]
  change t.size + 1 ≤ j
  omega

/-- Setting a timer changes what is found under its id only. -/
theorem Consistent.scheduleAt (h : t.Consistent) (id deadline : Nat) (action : α) :
    (t.scheduleAt id deadline action).Consistent ∧
      (t.scheduleAt id deadline action).find? =
        Function.update t.find? id (some ⟨id, deadline, action⟩) := by
  unfold TimerHeap.scheduleAt
  cases hs : t.slots[id]? with
  | some slot =>
      obtain ⟨n, hn, hid⟩ := h.indexed.nodes_eq hs
      exact consistent_set h hn hid.symm
  | none =>
      have hindexed := h.indexed.push (n := ⟨id, deadline, action⟩) hs
      have hmoved := rearranged_siftUp
        (⟨t.nodes.push ⟨id, deadline, action⟩, t.slots.insert id t.size⟩ : TimerHeap α) t.size
      refine ⟨⟨hmoved.indexed hindexed, ?_⟩, ?_⟩
      · exact (orderedBut_push h.ordered _ _).siftUp (orderedBelow_push t _ _)
      · exact (hmoved.find?_eq hindexed).trans (find?_push h.indexed _)

/-- Moving a deadline keeps the action. -/
theorem Consistent.adjustTo (h : t.Consistent) (id deadline : Nat) :
    (t.adjustTo id deadline).1 = (t.find? id).isSome ∧
      (t.adjustTo id deadline).2.Consistent ∧
      (t.adjustTo id deadline).2.find? =
        Function.update t.find? id
          ((t.find? id).map fun n => { n with deadline := deadline }) := by
  unfold TimerHeap.adjustTo
  cases hs : t.slots[id]? with
  | some slot =>
      obtain ⟨n, hn, rfl⟩ := h.indexed.nodes_eq hs
      have hfind : t.find? n.id = some n :=
        h.indexed.find?_eq_some_iff.2 ⟨mem_nodes_iff.2 ⟨slot, hn⟩, rfl⟩
      have hmodify : t.nodes.modify slot (fun n => { n with deadline := deadline }) =
          t.nodes.setIfInBounds slot { n with deadline := deadline } := by
        have hlt : slot < t.nodes.size := lt_size_of_nodes_eq hn
        apply Array.ext_getElem?
        intro i
        rw [Array.getElem?_modify, Array.getElem?_setIfInBounds, if_pos hlt]
        split
        · rename_i hi
          rw [← hi, hn]
          rfl
        · rfl
      simp only [hmodify, hfind]
      refine ⟨rfl, ?_⟩
      exact consistent_set h hn rfl
  | none =>
      have hfind := h.indexed.find?_eq_none_iff.2 hs
      rw [hfind]
      refine ⟨rfl, h, ?_⟩
      rw [Option.map_none, ← hfind, Function.update_eq_self]

end Schedule

section Remove

/-- What is found when one timer is gone. -/
theorem find?_of_perm_cons (ht : t.Indexed) (hs : s.Indexed) {n : Timer α}
    (h : (n :: s.nodes.toList).Perm t.nodes.toList) :
    s.find? = Function.update t.find? n.id none := by
  have hmem (x : Timer α) : x ∈ t.nodes ↔ x = n ∨ x ∈ s.nodes := by
    rw [← Array.mem_toList_iff, ← Array.mem_toList_iff, ← h.mem_iff, List.mem_cons]
  have hnodup := (h.map Timer.id).nodup_iff.2 ht.nodup_ids
  rw [List.map_cons, List.nodup_cons] at hnodup
  have hne (x : Timer α) (hx : x ∈ s.nodes) : x.id ≠ n.id := by
    intro hid
    exact hnodup.1 (hid ▸ List.mem_map_of_mem (Array.mem_toList_iff.2 hx))
  funext id
  by_cases hid : id = n.id
  · rw [hid, Function.update_self, Option.eq_none_iff_forall_ne_some]
    intro x hx
    obtain ⟨hxs, hxid⟩ := hs.find?_eq_some_iff.1 hx
    exact hne x hxs hxid
  · rw [Function.update_of_ne hid]
    ext x
    rw [hs.find?_eq_some_iff, ht.find?_eq_some_iff, hmem]
    constructor
    · rintro ⟨hx, hxid⟩
      exact ⟨Or.inr hx, hxid⟩
    · rintro ⟨rfl | hx, hxid⟩
      · exact absurd hxid.symm hid
      · exact ⟨hx, hxid⟩

theorem orderedBut_vacate (h : t.Ordered) {n : Timer α} (hn : t.nodes[slot]? = some n) :
    (t.vacate slot n).OrderedBut slot := by
  have hslot := lt_size_of_nodes_eq hn
  apply (h.orderedBut slot).of_nodes
  intro k x hk hx
  rw [nodes_vacate, Array.getElem?_pop] at hx
  split at hx
  · rename_i hlt
    rw [nodes_swap, Array.size_swapIfInBounds] at hlt
    change k < t.size - 1 at hlt
    rw [getElem?_nodes_swap t hslot (by omega),
      Equiv.swap_apply_of_ne_of_ne hk (Nat.ne_of_lt hlt)] at hx
    exact hx
  · cases hx

/-- Taking a timer out leaves the others. -/
theorem Consistent.removeAt? (h : t.Consistent) {n : Timer α} (hn : t.nodes[slot]? = some n) :
    ∃ r, t.removeAt? slot = some (n, r) ∧ r.Consistent ∧
      (n :: r.nodes.toList).Perm t.nodes.toList := by
  have hbut := orderedBut_vacate h.ordered hn
  have hindexed := indexed_vacate h.indexed hn
  refine ⟨_, removeAt?_eq hn, ?_⟩
  split
  · have hmoved := rearranged_reposition (t.vacate slot n) slot
    refine ⟨⟨hmoved.indexed hindexed, hbut.reposition⟩, ?_⟩
    exact (hmoved.perm.cons n).trans (perm_vacate hn)
  · rename_i hlast
    refine ⟨⟨hindexed, hbut.of_size_le ?_⟩, perm_vacate hn⟩
    rw [size_vacate]
    exact Nat.not_lt.1 hlast

/-- Taking the timer for an id out: there is one, or nothing is found. -/
theorem Consistent.take?_cases (h : t.Consistent) (id : Nat) :
    (∃ n r, t.find? id = some n ∧ t.take? id = some (n, r) ∧ r.Consistent ∧
      r.find? = Function.update t.find? id none) ∨
    (t.find? id = none ∧ t.take? id = none) := by
  unfold take?
  cases hs : t.slots[id]? with
  | some slot =>
      left
      obtain ⟨n, hn, rfl⟩ := h.indexed.nodes_eq hs
      obtain ⟨r, hr, hconsistent, hperm⟩ := h.removeAt? hn
      refine ⟨n, r, ?_, hr, hconsistent, ?_⟩
      · exact h.indexed.find?_eq_some_iff.2 ⟨mem_nodes_iff.2 ⟨slot, hn⟩, rfl⟩
      · exact find?_of_perm_cons h.indexed hconsistent.indexed hperm
  | none =>
      exact Or.inr ⟨h.indexed.find?_eq_none_iff.2 hs, rfl⟩

end Remove

section Fire

/-- Firing takes out the timers that are due, the earliest first, and leaves the others. -/
structure Fired (t : TimerHeap α) (now : Nat) (fired : List (Timer α)) (rest : TimerHeap α) :
    Prop where
  consistent : rest.Consistent
  perm : (fired ++ rest.nodes.toList).Perm t.nodes.toList
  due : ∀ n ∈ fired, n.deadline ≤ now
  later : ∀ n ∈ rest.nodes, now < n.deadline
  sorted : fired.Pairwise fun a b => a.deadline ≤ b.deadline

/-- Where the root is not due nothing is. -/
theorem Consistent.fired_nil (h : t.Consistent) {now : Nat}
    (hroot : ∀ root, t.nodes[0]? = some root → now < root.deadline) : Fired t now [] t := by
  refine ⟨h, List.Perm.refl _, ?_, ?_, List.Pairwise.nil⟩
  · intro n hn
    cases hn
  · intro n hn
    obtain ⟨slot, hslot⟩ := mem_nodes_iff.1 hn
    have hpos : 0 < t.size := Nat.lt_of_le_of_lt (Nat.zero_le slot) (lt_size_of_nodes_eq hslot)
    obtain ⟨root, hr⟩ := exists_nodes_eq hpos
    exact Nat.lt_of_lt_of_le (hroot root hr) (h.ordered.root_le hr hslot)

/-- The root fires before what is left. -/
theorem Fired.cons (h : t.Consistent) {now : Nat} {root : Timer α} {rest : TimerHeap α}
    {fired : List (Timer α)} (hroot : t.nodes[0]? = some root) (hdue : root.deadline ≤ now)
    (hperm : (root :: s.nodes.toList).Perm t.nodes.toList) (hs : Fired s now fired rest) :
    Fired t now (root :: fired) rest := by
  refine ⟨hs.consistent, (hs.perm.cons root).trans hperm, ?_, hs.later, ?_⟩
  · intro n hn
    rcases List.mem_cons.1 hn with rfl | hn
    · exact hdue
    · exact hs.due n hn
  · refine List.Pairwise.cons ?_ hs.sorted
    intro n hn
    have hmem : n ∈ t.nodes.toList := by
      apply hperm.mem_iff.1
      apply List.mem_cons_of_mem
      apply hs.perm.mem_iff.1
      exact List.mem_append_left _ hn
    obtain ⟨slot, hslot⟩ := mem_nodes_iff.1 (Array.mem_toList_iff.1 hmem)
    exact h.ordered.root_le hroot hslot

theorem Consistent.fireDue (h : t.Consistent) (now : Nat) :
    Fired t now (t.fireDue now).1 (t.fireDue now).2 := by
  fun_induction TimerHeap.fireDue t now with
  | case1 t hnone =>
      apply h.fired_nil
      intro root hroot
      rw [hnone] at hroot
      cases hroot
  | case2 t root hroot hlt =>
      apply h.fired_nil
      intro root' hroot'
      rw [hroot] at hroot'
      cases hroot'
      exact hlt
  | case3 t root hroot hlt hnone =>
      obtain ⟨r, hr, -⟩ := h.removeAt? hroot
      rw [hr] at hnone
      cases hnone
  | case4 t root hroot hlt n rest hremoved hsize fired last hlast ih =>
      obtain ⟨r, hr, hconsistent, hperm⟩ := h.removeAt? hroot
      rw [hr] at hremoved
      cases hremoved
      have hfired := ih hconsistent
      rw [hlast] at hfired
      exact Fired.cons h hroot (Nat.not_lt.1 hlt) hperm hfired

end Fire

end TimerHeap

end HttpServer
