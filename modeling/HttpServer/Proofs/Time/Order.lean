import HttpServer.Proofs.Time.Slots

/-!
# The order of a heap, and its repair

A heap is ordered if every timer is due no later than those below it. `OrderedBut` is what is left
of the order when the deadline at one slot is changed at will: the pairs without that slot are in
order, and what is above the slot is due no later than what is below it.

Sifting down moves the gap downwards, and leaves it in order with what is below. If the timer moved
at all, what took its place is in order with what is above, so only a timer that did not move may
have to go up. Sifting up moves a gap that is in order with what is below.
-/

namespace HttpServer

namespace TimerHeap

variable {α : Type} {s t : TimerHeap α} {a b c i j slot : Nat}

theorem parent_lt (h : 0 < i) : parent i < i := by
  unfold parent
  omega

theorem lt_leftChild (i : Nat) : i < leftChild i := by
  unfold leftChild
  omega

theorem eq_children_of_parent (h : 0 < j) (hp : parent j = i) :
    j = leftChild i ∨ j = leftChild i + 1 := by
  unfold parent at hp
  unfold leftChild
  omega

@[simp] theorem parent_leftChild (i : Nat) : parent (leftChild i) = i := by
  unfold parent leftChild
  omega

@[simp] theorem parent_leftChild_add_one (i : Nat) : parent (leftChild i + 1) = i := by
  unfold parent leftChild
  omega

theorem dueBy_eq_true_iff : t.dueBy a b = true ↔
    ∀ x y, t.nodes[a]? = some x → t.nodes[b]? = some y → x.deadline ≤ y.deadline := by
  unfold dueBy
  cases t.nodes[a]? with
  | none =>
      refine ⟨?_, fun _ => rfl⟩
      intro _ x y hx
      cases hx
  | some x =>
      cases t.nodes[b]? with
      | none =>
          refine ⟨?_, fun _ => rfl⟩
          intro _ x y _ hy
          cases hy
      | some y =>
          refine ⟨?_, fun h => decide_eq_true (h x y rfl rfl)⟩
          intro h x' y' hx hy
          cases hx
          cases hy
          exact of_decide_eq_true h

theorem dueBy_refl (t : TimerHeap α) (a : Nat) : t.dueBy a a = true := by
  rw [dueBy_eq_true_iff]
  intro x y hx hy
  rw [hx] at hy
  cases hy
  exact Nat.le_refl _

theorem dueBy_of_dueBy_eq_false (h : t.dueBy a b = false) : t.dueBy b a = true := by
  obtain ⟨x, y, hx, hy, hlt⟩ := of_dueBy_eq_false h
  rw [dueBy_eq_true_iff]
  intro y' x' hy' hx'
  rw [hx] at hx'
  rw [hy] at hy'
  cases hx'
  cases hy'
  exact Nat.le_of_lt hlt

theorem dueBy_trans (hb : b < t.size) (hab : t.dueBy a b = true) (hbc : t.dueBy b c = true) :
    t.dueBy a c = true := by
  obtain ⟨y, hy⟩ := exists_nodes_eq hb
  rw [dueBy_eq_true_iff] at hab hbc ⊢
  intro x z hx hz
  exact Nat.le_trans (hab x y hx hy) (hbc y z hy hz)

theorem dueBy_of_size_le (h : t.size ≤ b) (a : Nat) : t.dueBy a b = true := by
  rw [dueBy_eq_true_iff]
  intro x y _ hy
  exact absurd (lt_size_of_nodes_eq hy) (Nat.not_lt.2 h)

theorem lt_size_of_dueBy_eq_false (h : t.dueBy a b = false) : a < t.size ∧ b < t.size := by
  obtain ⟨x, y, hx, hy, -⟩ := of_dueBy_eq_false h
  exact ⟨lt_size_of_nodes_eq hx, lt_size_of_nodes_eq hy⟩

/-- Only what stands at the two slots matters. -/
theorem dueBy_congr {a' b' : Nat} (ha : s.nodes[a]? = t.nodes[a']?)
    (hb : s.nodes[b]? = t.nodes[b']?) : s.dueBy a b = t.dueBy a' b' := by
  unfold dueBy
  rw [ha, hb]

theorem dueBy_swap (t : TimerHeap α) (ha : a < t.size) (hb : b < t.size) (i j : Nat) :
    (t.swap a b).dueBy i j = t.dueBy (Equiv.swap a b i) (Equiv.swap a b j) :=
  dueBy_congr (getElem?_nodes_swap t ha hb i) (getElem?_nodes_swap t ha hb j)

/-- Every timer is due no later than those below it. -/
def Ordered (t : TimerHeap α) : Prop :=
  ∀ j, 0 < j → t.dueBy (parent j) j = true

/-- A timer is due no later than those below it. -/
def OrderedBelow (t : TimerHeap α) (i : Nat) : Prop :=
  ∀ j, 0 < j → parent j = i → t.dueBy i j = true

/-- The order would hold if the deadline at one slot were suitably chosen. -/
structure OrderedBut (t : TimerHeap α) (i : Nat) : Prop where
  off : ∀ j, 0 < j → j ≠ i → parent j ≠ i → t.dueBy (parent j) j = true
  across : 0 < i → ∀ j, 0 < j → parent j = i → t.dueBy (parent i) j = true

theorem Ordered.orderedBut (h : t.Ordered) (i : Nat) : t.OrderedBut i := by
  refine ⟨fun j hj _ _ => h j hj, ?_⟩
  rintro hpos j hj rfl
  by_cases hi : parent j < t.size
  · exact dueBy_trans hi (h _ hpos) (h j hj)
  · have := parent_lt hj
    exact dueBy_of_size_le (by omega) _

/-- The order but for one slot does not depend on what stands there, and fewer timers keep it. -/
theorem OrderedBut.of_nodes (h : t.OrderedBut i)
    (hsub : ∀ k n, k ≠ i → s.nodes[k]? = some n → t.nodes[k]? = some n) : s.OrderedBut i := by
  have hdue (a b : Nat) (ha : a ≠ i) (hb : b ≠ i) (hab : t.dueBy a b = true) :
      s.dueBy a b = true := by
    rw [dueBy_eq_true_iff] at hab ⊢
    intro x y hx hy
    exact hab x y (hsub a x ha hx) (hsub b y hb hy)
  refine ⟨?_, ?_⟩
  · intro j hj hji hpi
    exact hdue _ _ hpi hji (h.off j hj hji hpi)
  · intro hpos j hj hp
    have hpi := parent_lt hpos
    have hpj := parent_lt hj
    exact hdue _ _ (by omega) (by omega) (h.across hpos j hj hp)

/-- A slot that is not taken is out of order with nothing. -/
theorem OrderedBut.of_size_le (h : t.OrderedBut i) (hi : t.size ≤ i) : t.Ordered := by
  intro j hj
  by_cases hji : j = i
  · rw [hji]
    exact dueBy_of_size_le hi _
  · by_cases hpi : parent j = i
    · have hpj := parent_lt hj
      exact dueBy_of_size_le (by omega) _
    · exact h.off j hj hji hpi

theorem OrderedBut.ordered (h : t.OrderedBut i) (hup : 0 < i → t.dueBy (parent i) i = true)
    (hdown : t.OrderedBelow i) : t.Ordered := by
  intro j hj
  by_cases hji : j = i
  · rw [hji]
    exact hup (hji ▸ hj)
  · by_cases hpi : parent j = i
    · rw [hpi]
      exact hdown j hj hpi
    · exact h.off j hj hji hpi

section Down

theorem parent_earlierChild (t : TimerHeap α) (slot : Nat) :
    parent (t.earlierChild slot) = slot := by
  unfold earlierChild
  split
  · exact parent_leftChild_add_one slot
  · exact parent_leftChild slot

/-- What is below a slot is due no earlier than the child that is chosen. -/
theorem dueBy_earlierChild (t : TimerHeap α) (hj : 0 < j) (hp : parent j = slot) :
    t.dueBy (t.earlierChild slot) j = true := by
  unfold earlierChild
  split
  · rename_i h
    rcases eq_children_of_parent hj hp with rfl | rfl
    · apply dueBy_of_dueBy_eq_false
      simpa using h.2
    · exact dueBy_refl _ _
  · rename_i h
    rcases eq_children_of_parent hj hp with rfl | rfl
    · exact dueBy_refl _ _
    · by_cases hlt : leftChild slot + 1 < t.size
      · simpa [hlt] using h
      · exact dueBy_of_size_le (Nat.not_lt.1 hlt) _

/-- The gap one step further down. -/
theorem OrderedBut.swap_earlierChild (h : t.OrderedBut i)
    (hlt : t.dueBy i (t.earlierChild i) = false) :
    (t.swap i (t.earlierChild i)).OrderedBut (t.earlierChild i) ∧
      (t.swap i (t.earlierChild i)).dueBy i (t.earlierChild i) = true := by
  obtain ⟨hi, hc⟩ := lt_size_of_dueBy_eq_false hlt
  have hic := lt_earlierChild t i
  have hpc := parent_earlierChild t i
  have hchild (j : Nat) (hj : 0 < j) (hp : parent j = i) := dueBy_earlierChild t hj hp
  generalize t.earlierChild i = c at *
  have hfix (k : Nat) (hki : k ≠ i) (hkc : k ≠ c) : Equiv.swap i c k = k :=
    Equiv.swap_apply_of_ne_of_ne hki hkc
  refine ⟨⟨?_, ?_⟩, ?_⟩
  · intro j hj hjc hpjc
    have hpj := parent_lt hj
    rw [dueBy_swap t hi hc]
    by_cases hji : j = i
    · -- what comes up was below what stands above
      rw [hji] at hj hpj ⊢
      rw [Equiv.swap_apply_left, hfix _ (Nat.ne_of_lt hpj) (Nat.ne_of_lt (Nat.lt_trans hpj hic))]
      exact h.across hj c (Nat.zero_lt_of_lt hic) hpc
    · rw [hfix j hji hjc]
      by_cases hpi : parent j = i
      · -- the sibling of what comes up was passed over
        rw [hpi, Equiv.swap_apply_left]
        exact hchild j hj hpi
      · rw [hfix _ hpi hpjc]
        exact h.off j hj hji hpi
  · intro _ j hj hp
    have hcj : c < j := hp ▸ parent_lt hj
    have hji : j ≠ i := Nat.ne_of_gt (Nat.lt_trans hic hcj)
    rw [dueBy_swap t hi hc, hpc, Equiv.swap_apply_left, hfix j hji (Nat.ne_of_gt hcj)]
    have hoff := h.off j hj hji (hp ▸ Nat.ne_of_gt hic)
    rw [hp] at hoff
    exact hoff
  · rw [dueBy_swap t hi hc, Equiv.swap_apply_left, Equiv.swap_apply_right]
    exact dueBy_of_dueBy_eq_false hlt

/-- What sifting down comes to: the timer rests in order with what is below; if it moved, with what
is above as well. -/
structure SiftedDown (t : TimerHeap α) (slot : Nat) (r : TimerHeap α × Nat) : Prop where
  le : slot ≤ r.2
  orderedBut : r.1.OrderedBut r.2
  orderedBelow : r.1.OrderedBelow r.2
  dueBy_of_lt : slot < r.2 → r.1.dueBy (parent r.2) r.2 = true
  eq_of_eq : r.2 = slot → r.1 = t

theorem siftedDown_self (h : t.OrderedBut slot) (hbelow : t.OrderedBelow slot) :
    SiftedDown t slot (t, slot) :=
  ⟨Nat.le_refl _, h, hbelow, fun hlt => absurd hlt (Nat.lt_irrefl _), fun _ => rfl⟩

theorem OrderedBut.siftDown (h : t.OrderedBut slot) : SiftedDown t slot (t.siftDown slot) := by
  fun_induction TimerHeap.siftDown t slot with
  | case1 t slot hleft hdue =>
      apply siftedDown_self h
      intro j hj hp
      exact dueBy_trans (earlierChild_lt hleft) hdue (dueBy_earlierChild t hj hp)
  | case2 t slot hleft hdue ih =>
      obtain ⟨hbut, habove⟩ := h.swap_earlierChild (Bool.not_eq_true _ ▸ hdue)
      have hr := ih hbut
      have hlt := Nat.lt_of_lt_of_le (lt_earlierChild t slot) hr.le
      refine ⟨Nat.le_of_lt hlt, hr.orderedBut, hr.orderedBelow, ?_, ?_⟩
      · intro _
        rcases Nat.lt_or_eq_of_le hr.le with hmoved | hrests
        · exact hr.dueBy_of_lt hmoved
        · rw [hr.eq_of_eq hrests.symm, ← hrests, parent_earlierChild]
          exact habove
      · intro heq
        exact absurd heq (Nat.ne_of_gt hlt)
  | case3 t slot hleft =>
      apply siftedDown_self h
      intro j hj hp
      apply dueBy_of_size_le
      rcases eq_children_of_parent hj hp with rfl | rfl
      · exact Nat.not_lt.1 hleft
      · exact Nat.le_succ_of_le (Nat.not_lt.1 hleft)

end Down

section Up

/-- The gap one step further up. -/
theorem OrderedBut.swap_parent (h : t.OrderedBut i) (hpos : 0 < i)
    (hlt : t.dueBy (parent i) i = false) :
    (t.swap i (parent i)).OrderedBut (parent i) ∧
      (t.swap i (parent i)).OrderedBelow (parent i) := by
  obtain ⟨hp, hi⟩ := lt_size_of_dueBy_eq_false hlt
  have hpi := parent_lt hpos
  have hup := dueBy_of_dueBy_eq_false hlt
  have hfix (k : Nat) (hki : k ≠ i) (hkp : k ≠ parent i) : Equiv.swap i (parent i) k = k :=
    Equiv.swap_apply_of_ne_of_ne hki hkp
  -- the children of the parent are the timer that goes up and at most one sibling
  have hsibling (j : Nat) (hj : 0 < j) (hji : j ≠ i) (hpj : parent j = parent i) :
      Equiv.swap i (parent i) j = j ∧ t.dueBy (parent i) j = true := by
    refine ⟨hfix j hji (hpj ▸ Nat.ne_of_gt (parent_lt hj)), ?_⟩
    rw [← hpj]
    exact h.off j hj hji (hpj ▸ Nat.ne_of_lt hpi)
  refine ⟨⟨?_, ?_⟩, ?_⟩
  · intro j hj hjp hpjp
    have hji : j ≠ i := fun hji => hpjp (hji ▸ rfl)
    rw [dueBy_swap t hi hp, hfix j hji hjp]
    by_cases hpji : parent j = i
    · rw [hpji, Equiv.swap_apply_left]
      exact h.across hpos j hj hpji
    · rw [hfix _ hpji hpjp]
      exact h.off j hj hji hpji
  · intro hppos j hj hpj
    have hpp := parent_lt hppos
    have hppi : parent (parent i) ≠ i := Nat.ne_of_lt (Nat.lt_trans hpp hpi)
    have habove := h.off (parent i) hppos (Nat.ne_of_lt hpi) hppi
    rw [dueBy_swap t hi hp, hfix (parent (parent i)) hppi (Nat.ne_of_lt hpp)]
    by_cases hji : j = i
    · rw [hji, Equiv.swap_apply_left]
      exact habove
    · obtain ⟨hsame, hdue⟩ := hsibling j hj hji hpj
      rw [hsame]
      exact dueBy_trans hp habove hdue
  · intro j hj hpj
    rw [dueBy_swap t hi hp, Equiv.swap_apply_right]
    by_cases hji : j = i
    · rw [hji, Equiv.swap_apply_left]
      exact hup
    · obtain ⟨hsame, hdue⟩ := hsibling j hj hji hpj
      rw [hsame]
      exact dueBy_trans hp hup hdue

theorem OrderedBut.siftUp (h : t.OrderedBut slot) (hbelow : t.OrderedBelow slot) :
    (t.siftUp slot).Ordered := by
  fun_induction TimerHeap.siftUp t slot with
  | case1 t =>
      exact h.ordered (fun hpos => absurd hpos (Nat.lt_irrefl _)) hbelow
  | case2 t slot _ hdue =>
      exact h.ordered (fun _ => hdue) hbelow
  | case3 t slot hne hdue ih =>
      obtain ⟨hbut, hbelow'⟩ := h.swap_parent (Nat.pos_of_ne_zero hne) (Bool.not_eq_true _ ▸ hdue)
      exact ih hbut hbelow'

end Up

/-- Repositioning repairs the order, whatever was done to the deadline at the slot. -/
theorem OrderedBut.reposition (h : t.OrderedBut slot) : (t.reposition slot).Ordered := by
  have hr := h.siftDown
  rw [reposition_eq]
  split
  · rename_i hmoved
    exact hr.orderedBut.ordered (fun _ => hr.dueBy_of_lt hmoved) hr.orderedBelow
  · rename_i hstays
    have hrests : (t.siftDown slot).2 = slot := Nat.le_antisymm (Nat.not_lt.1 hstays) hr.le
    have hbut := hr.orderedBut
    have hbelow := hr.orderedBelow
    rw [hrests] at hbut hbelow
    exact hbut.siftUp hbelow

/-- No timer is due before the one at the root. -/
theorem Ordered.root_le (h : t.Ordered) {root n : Timer α} (hroot : t.nodes[0]? = some root)
    (hn : t.nodes[slot]? = some n) : root.deadline ≤ n.deadline := by
  have hdue : t.dueBy 0 slot = true := by
    induction slot using Nat.strongRecOn generalizing n with
    | ind slot ih =>
        rcases Nat.eq_zero_or_pos slot with hzero | hpos
        · rw [hzero]
          exact dueBy_refl t 0
        · have hp : parent slot < t.size :=
            Nat.lt_trans (parent_lt hpos) (lt_size_of_nodes_eq hn)
          obtain ⟨m, hm⟩ := exists_nodes_eq hp
          exact dueBy_trans hp (ih _ (parent_lt hpos) hm) (h slot hpos)
  exact dueBy_eq_true_iff.1 hdue root n hroot hn

end TimerHeap

end HttpServer
