import HttpServer.Store.Pool
import Mathlib.Data.List.Nodup
import Mathlib.Data.List.Perm.Basic
import Mathlib.Logic.Function.Basic

/-!
# The connections of a pool

The connections with which a pool was opened are all that it ever has: each is idle or in the hands
of one holder. `Holdings` tells them apart by the numbers under which they were opened, and
`Holdings.Step` are the rules for them. An idle connection is handed out as it was left, a
connection is changed by its holder alone, and what a holder lets go of is idle again.

A pool knows no numbers. `Shows` says which connection stands where, and `shows_call` that a desk
keeps to the rules, whichever of the idle connections it chooses.
-/

namespace HttpServer

/-- What is asked of a desk. The copies of a pool share its connections, so it makes no difference
through which of them a holder asks; and a connection that is dropped is released by that. -/
inductive StoreCall (γ : Type) where
  | acquire (holder : String)
  | release (holder : String)
  | modify (holder : String) (f : γ → γ)

/-- What a desk answers. -/
inductive StoreAnswer (γ : Type) where
  | acquired (c : Option γ)
  | released (had : Bool)
  | modified (c : Option γ)

/-- The connections of a pool under their numbers. -/
structure Holdings (γ : Type) where
  /-- How a connection was left. -/
  state : Nat → γ
  holder? : Nat → Option String

namespace Holdings

variable {γ : Type}

/-- All connections are idle. -/
def ofStates (state : Nat → γ) : Holdings γ := ⟨state, fun _ => none⟩

/-- A holder has let go of its connection. -/
def without (h : Holdings γ) (holder : String) : Holdings γ :=
  { h with holder? := fun i => if h.holder? i = some holder then none else h.holder? i }

/-- A holder has taken a connection. -/
def taken (h : Holdings γ) (holder : String) (i : Nat) : Holdings γ :=
  { h with holder? := Function.update h.holder? i (some holder) }

/-- A connection was changed. -/
def changed (h : Holdings γ) (i : Nat) (c : γ) : Holdings γ :=
  { h with state := Function.update h.state i c }

theorem holder?_without (h : Holdings γ) (holder : String) (i : Nat) :
    (h.without holder).holder? i =
      if h.holder? i = some holder then none else h.holder? i := rfl

theorem holder?_taken (h : Holdings γ) (holder : String) (i j : Nat) :
    (h.taken holder i).holder? j = if j = i then some holder else h.holder? j :=
  Function.update_apply _ _ _ _

theorem state_changed (h : Holdings γ) (i : Nat) (c : γ) (j : Nat) :
    (h.changed i c).state j = if j = i then c else h.state j :=
  Function.update_apply _ _ _ _

/-- The rules for `n` connections. -/
inductive Step (n : Nat) (h : Holdings γ) : StoreCall γ → StoreAnswer γ → Holdings γ → Prop where
  | acquired {holder : String} {i : Nat} : i < n → h.holder? i = none →
      Step n h (.acquire holder) (.acquired (some (h.state i))) ((h.without holder).taken holder i)
  | exhausted {holder : String} : (∀ i < n, h.holder? i ≠ none) →
      Step n h (.acquire holder) (.acquired none) h
  | released {holder : String} {had : Bool} : (had = true ↔ ∃ i, h.holder? i = some holder) →
      Step n h (.release holder) (.released had) (h.without holder)
  | modified {holder : String} {f : γ → γ} {i : Nat} : h.holder? i = some holder →
      Step n h (.modify holder f) (.modified (some (f (h.state i)))) (h.changed i (f (h.state i)))
  | unmodified {holder : String} {f : γ → γ} : (∀ i, h.holder? i ≠ some holder) →
      Step n h (.modify holder f) (.modified none) h

/-- The rules for call after call. -/
inductive Steps (n : Nat) :
    Holdings γ → List (StoreCall γ) → List (StoreAnswer γ) → Holdings γ → Prop where
  | nil (h : Holdings γ) : Steps n h [] [] h
  | cons {h h' h'' : Holdings γ} {a : StoreCall γ} {b : StoreAnswer γ} {as : List (StoreCall γ)}
      {bs : List (StoreAnswer γ)} : Step n h a b h' → Steps n h' as bs h'' →
      Steps n h (a :: as) (b :: bs) h''

/-- A connection is changed by its own holder alone. -/
theorem Step.state_eq {n : Nat} {h h' : Holdings γ} {a : StoreCall γ} {b : StoreAnswer γ}
    (hstep : Step n h a b h') {i : Nat}
    (hi : ∀ holder f, a = .modify holder f → h.holder? i ≠ some holder) :
    h'.state i = h.state i := by
  cases hstep with
  | acquired | exhausted | released | unmodified => rfl
  | @modified holder f j hj =>
      rw [state_changed, if_neg]
      rintro rfl
      exact hi holder f rfl hj

end Holdings

namespace StoreDesk

variable {γ : Type}

/-- A desk answers a call. -/
def call (d : StoreDesk γ) : StoreCall γ → StoreAnswer γ × StoreDesk γ
  | .acquire holder => (.acquired (d.acquire holder).1, (d.acquire holder).2)
  | .release holder => (.released (d.release holder).1, (d.release holder).2)
  | .modify holder f => (.modified (d.modify holder f).1, (d.modify holder f).2)

/-- A desk answers call after call. -/
def calls (d : StoreDesk γ) : List (StoreCall γ) → List (StoreAnswer γ) × StoreDesk γ
  | [] => ([], d)
  | a :: as => ((d.call a).1 :: ((d.call a).2.calls as).1, ((d.call a).2.calls as).2)

/-- Which connections are idle and which are held, under their numbers. -/
structure Shows (d : StoreDesk γ) (h : Holdings γ) (idle : List Nat) (held : List (String × Nat)) :
    Prop where
  idle_eq : d.pool.idle = idle.map h.state
  held_eq : d.held = held.map fun e => (e.1, h.state e.2)
  nodup : (idle ++ held.map Prod.snd).Nodup
  nodup_holders : (held.map Prod.fst).Nodup
  holder?_eq_some_iff : ∀ i holder, h.holder? i = some holder ↔ (holder, i) ∈ held

/-- The connections of a desk are the `n` with which it was opened, each once. -/
structure Keeps (d : StoreDesk γ) (n : Nat) (h : Holdings γ) : Prop where
  capacity_eq : d.pool.capacity = n
  conserved : ∃ idle held, d.Shows h idle held ∧
    (idle ++ held.map Prod.snd).Perm (List.range n)

/-- A holder that stands in a list once can be brought to its front. -/
theorem perm_cons_filter {held : List (String × Nat)} (hn : (held.map Prod.fst).Nodup)
    {holder : String} {i : Nat} (hmem : (holder, i) ∈ held) :
    held.Perm ((holder, i) :: held.filter fun e => e.1 != holder) := by
  induction held with
  | nil => cases hmem
  | cons e held ih =>
      obtain ⟨hne, hn⟩ := List.nodup_cons.1 hn
      rcases List.mem_cons.1 hmem with rfl | hmem
      · have hothers : ∀ e ∈ held, (e.1 != holder) = true := by
          intro e he
          rw [bne_iff_ne]
          rintro rfl
          exact hne (List.mem_map.2 ⟨e, he, rfl⟩)
        rw [List.filter_cons, if_neg (by simp), List.filter_eq_self.2 hothers]
      · have hother : (e.1 != holder) = true := by
          rw [bne_iff_ne]
          rintro rfl
          exact hne (List.mem_map.2 ⟨_, hmem, rfl⟩)
        rw [List.filter_cons, if_pos hother]
        exact ((ih hn hmem).cons e).trans (.swap _ _ _)

namespace Shows

variable {d : StoreDesk γ} {h : Holdings γ} {idle : List Nat} {held : List (String × Nat)}
  (hs : d.Shows h idle held)

include hs

theorem held?_eq (holder : String) :
    d.held? holder = (held.find? fun e => e.1 == holder).map fun e => h.state e.2 := by
  rw [StoreDesk.held?, hs.held_eq, List.find?_map, Option.map_map]
  rfl

theorem held_forget (holder : String) :
    (d.forget holder).held =
      (held.filter fun e => e.1 != holder).map fun e => (e.1, h.state e.2) := by
  rw [forget, hs.held_eq, List.filter_map]
  rfl

/-- Either a holder has one connection, or it has none. -/
theorem held?_cases (holder : String) :
    (∃ i, (holder, i) ∈ held ∧ d.held? holder = some (h.state i)) ∨
      ((∀ i, (holder, i) ∉ held) ∧ d.held? holder = none) := by
  rw [hs.held?_eq]
  cases hfind : held.find? fun e => e.1 == holder with
  | none =>
      refine Or.inr ⟨fun i hi => ?_, rfl⟩
      have hne := List.find?_eq_none.1 hfind _ hi
      simp at hne
  | some e =>
      have hholder : e.1 = holder := by simpa using List.find?_some hfind
      have hmem := List.mem_of_find?_eq_some hfind
      subst hholder
      exact Or.inl ⟨e.2, hmem, rfl⟩

/-- Every number stands once. -/
theorem perm_of_mem {holder : String} {i : Nat} (hi : (holder, i) ∈ held) :
    (idle ++ held.map Prod.snd).Perm
      (i :: (idle ++ (held.filter fun e => e.1 != holder).map Prod.snd)) := by
  have hperm := (perm_cons_filter hs.nodup_holders hi).map Prod.snd
  exact (hperm.append_left idle).trans List.perm_middle

theorem nodup_holders_filter (holder : String) :
    ((held.filter fun e => e.1 != holder).map Prod.fst).Nodup :=
  hs.nodup_holders.sublist (List.filter_sublist.map _)

omit hs in
theorem not_mem_holders_filter (holder : String) :
    holder ∉ (held.filter fun e => e.1 != holder).map Prod.fst := by
  intro hmem
  obtain ⟨e, he, rfl⟩ := List.mem_map.1 hmem
  simpa using (List.mem_filter.1 he).2

/-- A connection is idle again when it was let go of. -/
theorem without_holder?_iff (holder : String) (i : Nat) (other : String) :
    (h.without holder).holder? i = some other ↔
      (other, i) ∈ held.filter fun e => e.1 != holder := by
  rw [List.mem_filter, ← hs.holder?_eq_some_iff, bne_iff_ne, Holdings.holder?_without]
  split
  · rename_i hi
    refine iff_of_false nofun ?_
    rintro ⟨hother, hne⟩
    exact hne (Option.some.inj (hother.symm.trans hi))
  · rename_i hi
    refine ⟨fun hother => ⟨hother, ?_⟩, And.left⟩
    rintro rfl
    exact hi hother

theorem without_eq {holder : String} (hnone : ∀ i, (holder, i) ∉ held) :
    h.without holder = h := by
  have hfree : ∀ i, h.holder? i ≠ some holder := fun i hi =>
    hnone i ((hs.holder?_eq_some_iff i holder).1 hi)
  unfold Holdings.without
  simp only [if_neg (hfree _)]

/-- What a holder lets go of is idle again, as it was left. -/
theorem release (holder : String) :
    ((d.release holder).1 = true ↔ ∃ i, h.holder? i = some holder) ∧
      (d.release holder).2.pool.capacity = d.pool.capacity ∧
      ∃ idle' held', (d.release holder).2.Shows (h.without holder) idle' held' ∧
        (idle' ++ held'.map Prod.snd).Perm (idle ++ held.map Prod.snd) ∧
        holder ∉ held'.map Prod.fst := by
  rcases hs.held?_cases holder with ⟨i, hi, hheld⟩ | ⟨hnone, hheld⟩
  · have hperm := hs.perm_of_mem hi
    have hholder : ∃ i, h.holder? i = some holder :=
      ⟨i, (hs.holder?_eq_some_iff i holder).2 hi⟩
    rw [StoreDesk.release, hheld]
    refine ⟨iff_of_true rfl hholder, rfl, i :: idle, held.filter fun e => e.1 != holder,
      ⟨?_, ?_, ?_, ?_, ?_⟩, hperm.symm, not_mem_holders_filter holder⟩
    · exact congrArg _ hs.idle_eq
    · exact hs.held_forget holder
    · exact hperm.nodup_iff.1 hs.nodup
    · exact hs.nodup_holders_filter holder
    · exact hs.without_holder?_iff holder
  · have hholder : ¬ ∃ i, h.holder? i = some holder := by
      rintro ⟨i, hi⟩
      exact hnone i ((hs.holder?_eq_some_iff i holder).1 hi)
    rw [StoreDesk.release, hheld, hs.without_eq hnone]
    refine ⟨iff_of_false Bool.false_ne_true hholder, rfl, idle, held, hs, .refl _, ?_⟩
    intro hmem
    obtain ⟨e, he, rfl⟩ := List.mem_map.1 hmem
    exact hnone e.2 he

/-- A connection that nobody has is taken. -/
theorem taken {holder : String} {i : Nat} (hi : i ∉ idle ++ held.map Prod.snd)
    (hholder : holder ∉ held.map Prod.fst) :
    { d with held := (holder, h.state i) :: d.held }.Shows (h.taken holder i) idle
      ((holder, i) :: held) := by
  refine ⟨hs.idle_eq, congrArg _ hs.held_eq, ?_, List.nodup_cons.2 ⟨hholder, hs.nodup_holders⟩, ?_⟩
  · exact List.perm_middle.nodup_iff.2 (List.nodup_cons.2 ⟨hi, hs.nodup⟩)
  · intro j other
    rw [Holdings.holder?_taken, List.mem_cons, Prod.mk.injEq]
    split
    · rename_i hj
      subst hj
      have hfree : (other, j) ∉ held := fun hmem =>
        hi (List.mem_append_right _ (List.mem_map.2 ⟨_, hmem, rfl⟩))
      rw [or_iff_left hfree, and_iff_left rfl, Option.some.injEq, eq_comm]
    · rename_i hj
      rw [hs.holder?_eq_some_iff, or_iff_right fun h => hj h.2]

/-- A holder changes its own connection, and no other. -/
theorem modify {holder : String} {i : Nat} (hi : (holder, i) ∈ held)
    (hheld : d.held? holder = some (h.state i)) (f : γ → γ) :
    (d.modify holder f).1 = some (f (h.state i)) ∧
      (d.modify holder f).2.pool.capacity = d.pool.capacity ∧
      ∃ held', (d.modify holder f).2.Shows (h.changed i (f (h.state i))) idle held' ∧
        (idle ++ held'.map Prod.snd).Perm (idle ++ held.map Prod.snd) := by
  have hperm := hs.perm_of_mem hi
  obtain ⟨hnew, -⟩ := List.nodup_cons.1 (hperm.nodup_iff.1 hs.nodup)
  have hother : ∀ j ∈ idle ++ (held.filter fun e => e.1 != holder).map Prod.snd,
      (h.changed i (f (h.state i))).state j = h.state j := by
    intro j hj
    rw [Holdings.state_changed, if_neg]
    rintro rfl
    exact hnew hj
  rw [StoreDesk.modify, hheld]
  refine ⟨rfl, rfl, (holder, i) :: held.filter fun e => e.1 != holder, ⟨?_, ?_, ?_, ?_, ?_⟩,
    List.perm_middle.trans hperm.symm⟩
  · rw [hs.idle_eq]
    exact (List.map_congr_left fun j hj => hother j (List.mem_append_left _ hj)).symm
  · simp only
    rw [hs.held_forget, List.map_cons, Holdings.state_changed, if_pos rfl]
    refine congrArg _ (List.map_congr_left fun e he => ?_)
    rw [hother e.2 (List.mem_append_right _ (List.mem_map.2 ⟨e, he, rfl⟩))]
  · exact List.perm_middle.nodup_iff.2 (hperm.nodup_iff.1 hs.nodup)
  · exact List.nodup_cons.2 ⟨not_mem_holders_filter holder, hs.nodup_holders_filter holder⟩
  · intro j other
    exact (hs.holder?_eq_some_iff j other).trans
      (perm_cons_filter hs.nodup_holders hi).mem_iff

omit hs in
/-- An idle connection is taken, as it was left. -/
theorem acquire {i : Nat} (hs : d.Shows h (i :: idle) held) (holder : String) :
    h.holder? i = none ∧ (d.acquire holder).1 = some (h.state i) ∧
      (d.acquire holder).2.pool.capacity = d.pool.capacity ∧
      ∃ idle' held', (d.acquire holder).2.Shows ((h.without holder).taken holder i) idle' held' ∧
        (idle' ++ held'.map Prod.snd).Perm (i :: idle ++ held.map Prod.snd) := by
  obtain ⟨hi, hnodup⟩ := List.nodup_cons.1 hs.nodup
  have hfree : h.holder? i = none := by
    refine Option.eq_none_iff_forall_ne_some.2 fun other hother => hi ?_
    have hmem := (hs.holder?_eq_some_iff i other).1 hother
    exact List.mem_append_right _ (List.mem_map.2 ⟨_, hmem, rfl⟩)
  have hpool : d.pool.acquire =
      (some (h.state i), { d.pool with idle := idle.map h.state }) := by
    rw [StorePool.acquire, hs.idle_eq]
    rfl
  -- the connection that the holder had goes back only after this one was taken
  have hrest : { d with pool := { d.pool with idle := idle.map h.state } }.Shows h idle held :=
    ⟨rfl, hs.held_eq, hnodup, hs.nodup_holders, hs.holder?_eq_some_iff⟩
  obtain ⟨-, hcapacity, idle', held', hback, hperm, hholder⟩ := hrest.release holder
  have hi' : i ∉ idle' ++ held'.map Prod.snd := fun hmem => hi (hperm.mem_iff.1 hmem)
  rw [StoreDesk.acquire, hpool]
  exact ⟨hfree, rfl, hcapacity, idle', (holder, i) :: held', hback.taken hi' hholder,
    List.perm_middle.trans (hperm.cons i)⟩

end Shows

section Keeps

variable {d : StoreDesk γ} {n : Nat} {h : Holdings γ}

theorem Keeps.available_add (hk : d.Keeps n h) : d.pool.available + d.held.length = n := by
  obtain ⟨idle, held, hs, hperm⟩ := hk.conserved
  have hlength := hperm.length_eq
  rw [List.length_append, List.length_map, List.length_range] at hlength
  rw [StorePool.available, hs.idle_eq, hs.held_eq, List.length_map, List.length_map, hlength]

/-- There is nothing to be taken when all connections are held, and only then. -/
theorem Keeps.exhausted_iff (hk : d.Keeps n h) (holder : String) :
    (d.acquire holder).1 = none ↔ d.held.length = n := by
  have hadd := hk.available_add
  have hnone : (d.acquire holder).1 = none ↔ d.pool.idle = [] := by
    unfold acquire StorePool.acquire
    cases d.pool.idle with
    | nil => exact iff_of_true rfl rfl
    | cons c rest => exact iff_of_false nofun (List.cons_ne_nil _ _)
  rw [hnone, ← List.length_eq_zero_iff, ← hadd, StorePool.available]
  omega

/-- A desk answers a call by the rules. -/
theorem Keeps.call (hk : d.Keeps n h) (a : StoreCall γ) :
    ∃ h', h.Step n a (d.call a).1 h' ∧ (d.call a).2.Keeps n h' := by
  obtain ⟨hcapacity, idle, held, hs, hperm⟩ := hk
  cases a with
  | acquire holder =>
      cases idle with
      | nil =>
          have hpool : d.acquire holder = (none, d) := by
            rw [acquire, StorePool.acquire, hs.idle_eq]
            rfl
          rw [StoreDesk.call, hpool]
          refine ⟨h, .exhausted fun i hi => ?_, hcapacity, [], held, hs, hperm⟩
          obtain ⟨e, he, rfl⟩ := List.mem_map.1 (hperm.mem_iff.2 (List.mem_range.2 hi))
          rw [(hs.holder?_eq_some_iff e.2 e.1).2 he]
          exact nofun
      | cons i idle =>
          obtain ⟨hfree, hanswer, hcap, idle', held', hs', hperm'⟩ := hs.acquire holder
          have hi : i < n := List.mem_range.1 (hperm.mem_iff.1 List.mem_cons_self)
          rw [StoreDesk.call, hanswer]
          exact ⟨_, .acquired hi hfree, hcap.trans hcapacity, idle', held', hs',
            hperm'.trans hperm⟩
  | release holder =>
      obtain ⟨hhad, hcap, idle', held', hs', hperm', -⟩ := hs.release holder
      exact ⟨_, .released hhad, hcap.trans hcapacity, idle', held', hs', hperm'.trans hperm⟩
  | modify holder f =>
      rcases hs.held?_cases holder with ⟨i, hi, hheld⟩ | ⟨hnone, hheld⟩
      · obtain ⟨hanswer, hcap, held', hs', hperm'⟩ := hs.modify hi hheld f
        rw [StoreDesk.call, hanswer]
        exact ⟨_, .modified ((hs.holder?_eq_some_iff i holder).2 hi), hcap.trans hcapacity, idle,
          held', hs', hperm'.trans hperm⟩
      · rw [StoreDesk.call, modify, hheld]
        exact ⟨h, .unmodified fun i hi => hnone i ((hs.holder?_eq_some_iff i holder).1 hi),
          hcapacity, idle, held, hs, hperm⟩

theorem Keeps.calls (hk : d.Keeps n h) (as : List (StoreCall γ)) :
    ∃ h', Holdings.Steps n h as (d.calls as).1 h' ∧ (d.calls as).2.Keeps n h' := by
  induction as generalizing d h with
  | nil => exact ⟨h, .nil h, hk⟩
  | cons a as ih =>
      obtain ⟨h', hstep, hk'⟩ := hk.call a
      obtain ⟨h'', hsteps, hk''⟩ := ih hk'
      exact ⟨h'', .cons hstep hsteps, hk''⟩

/-- A pool as it is opened keeps its connections. -/
theorem keeps_ofPool (n : Nat) (state : Nat → γ) :
    (ofPool ⟨n, (List.range n).reverse.map state⟩).Keeps n (.ofStates state) := by
  refine ⟨rfl, (List.range n).reverse, [], ⟨rfl, rfl, ?_, List.nodup_nil, ?_⟩, ?_⟩
  · rw [List.map_nil, List.append_nil, List.nodup_reverse]
    exact List.nodup_range
  · intro i holder
    exact iff_of_false nofun nofun
  · rw [List.map_nil, List.append_nil]
    exact List.reverse_perm _

end Keeps

end StoreDesk

namespace StorePool

variable {γ : Type}

section Opening

variable {config : StoreConfig} {connect : Nat → Except ServerError γ}

theorem openFrom_of_ok {state : Nat → γ} {n i : Nat} {opened : List γ}
    (h : ∀ j < n, connect (i + j) = .ok (state (i + j))) :
    openFrom config connect n i opened =
      (.ok ((List.range' i n).reverse.map state ++ opened), i + n) := by
  induction n generalizing i opened with
  | zero => rfl
  | succ n ih =>
      have hlater : ∀ j < n, connect (i + 1 + j) = .ok (state (i + 1 + j)) := by
        intro j hj
        rw [Nat.add_right_comm i 1 j, Nat.add_assoc]
        exact h (j + 1) (Nat.succ_lt_succ hj)
      have hfirst : connect i = .ok (state i) := h 0 n.succ_pos
      rw [openFrom, hfirst]
      simp only
      rw [ih hlater, List.range'_succ, List.reverse_cons, List.map_append, List.append_assoc,
        Nat.add_right_comm i 1 n, Nat.add_assoc]
      rfl

/-- The first failure ends it. -/
theorem openFrom_of_error {n i k : Nat} {opened : List γ} {e : ServerError} (hk : k < n)
    (h : ∀ j < k, ∃ c, connect (i + j) = .ok c) (he : connect (i + k) = .error e) :
    openFrom config connect n i opened =
      (.error (.storeConnection (i + k) config.url e), i + k + 1) := by
  induction n generalizing i k opened with
  | zero => exact absurd hk (Nat.not_lt_zero k)
  | succ n ih =>
      rw [openFrom]
      cases k with
      | zero =>
          rw [Nat.add_zero] at he
          rw [he]
          rfl
      | succ k =>
          obtain ⟨c, hc⟩ := h 0 k.succ_pos
          rw [Nat.add_zero] at hc
          have hlater : ∀ j < k, ∃ c, connect (i + 1 + j) = .ok c := by
            intro j hj
            rw [Nat.add_right_comm i 1 j, Nat.add_assoc]
            exact h (j + 1) (Nat.succ_lt_succ hj)
          have hsum : i + (k + 1) = i + 1 + k := by
            rw [Nat.add_right_comm i 1 k, Nat.add_assoc]
          rw [hsum] at he ⊢
          rw [hc]
          exact ih (Nat.lt_of_succ_lt_succ hk) hlater he

theorem ofConfig_of_ok {state : Nat → γ}
    (h : ∀ i < config.poolSize.toNat, connect i = .ok (state i)) :
    ofConfig config connect =
      (.ok ⟨config.poolSize.toNat, (List.range config.poolSize.toNat).reverse.map state⟩,
        config.poolSize.toNat) := by
  have hopened : openFrom config connect config.poolSize.toNat 0 [] =
      (.ok ((List.range config.poolSize.toNat).reverse.map state), config.poolSize.toNat) := by
    rw [openFrom_of_ok (by simpa using h), List.append_nil, ← List.range_eq_range', Nat.zero_add]
  rw [ofConfig, hopened]
  simp [Except.map]

theorem ofConfig_of_error {i : Nat} {e : ServerError} (hi : i < config.poolSize.toNat)
    (h : ∀ j < i, ∃ c, connect j = .ok c) (he : connect i = .error e) :
    ofConfig config connect = (.error (.storeConnection i config.url e), i + 1) := by
  have hopened : openFrom config connect config.poolSize.toNat 0 [] =
      (.error (.storeConnection i config.url e), i + 1) := by
    rw [openFrom_of_error hi (by simpa using h) (by simpa using he), Nat.zero_add]
  rw [ofConfig, hopened]
  rfl

/-- A server opens its pool unless it is configured to have none. -/
theorem openFor_of_pos (h : 0 < config.poolSize.toNat) :
    openFor config connect =
      ((ofConfig config connect).1.map some, (ofConfig config connect).2) := by
  have hne : config.poolSize ≠ 0 := by
    intro hzero
    rw [hzero] at h
    exact Nat.lt_irrefl 0 h
  rw [openFor, if_neg hne]

end Opening

section Conservation

/-- A pool is opened with the number of connections that was asked for, or the first failure ends
the opening and there is no pool. Whatever is asked of it afterwards, its answers keep to the rules,
its connections are those with which it was opened, each of them idle or held once, and it has none
to give exactly while all of them are held. -/
theorem conserved_of_ofConfig (config : StoreConfig) (connect : Nat → Except ServerError γ) :
    let n := config.poolSize.toNat
    (∀ i < n, ∀ e, (∀ j < i, ∃ c, connect j = .ok c) → connect i = .error e →
      ofConfig config connect = (.error (.storeConnection i config.url e), i + 1) ∧
      openFor config connect = (.error (.storeConnection i config.url e), i + 1)) ∧
    ∀ state, (∀ i < n, connect i = .ok (state i)) →
      ∃ p, ofConfig config connect = (.ok p, n) ∧
        (0 < n → openFor config connect = (.ok (some p), n)) ∧
        ∀ before, ∃ h,
          let r := (StoreDesk.ofPool p).calls before
          Holdings.Steps n (.ofStates state) before r.1 h ∧ r.2.Keeps n h ∧
          r.2.pool.available + r.2.held.length = n ∧
          (∀ holder, (r.2.acquire holder).1 = none ↔ r.2.held.length = n) ∧
          ∀ a, ∃ h', h.Step n a (r.2.call a).1 h' ∧ (r.2.call a).2.Keeps n h' ∧
            ∀ i, (∀ holder f, a = .modify holder f → h.holder? i ≠ some holder) →
              h'.state i = h.state i := by
  intro n
  refine ⟨fun i hi e hbefore he => ?_, fun state hstate => ?_⟩
  · have hconfig := ofConfig_of_error hi hbefore he
    refine ⟨hconfig, ?_⟩
    rw [openFor_of_pos (Nat.zero_lt_of_lt hi), hconfig]
    rfl
  · have hconfig := ofConfig_of_ok hstate
    refine ⟨_, hconfig, fun hpos => ?_, fun before => ?_⟩
    · rw [openFor_of_pos hpos, hconfig]
      rfl
    · obtain ⟨h, hsteps, hkeeps⟩ := (StoreDesk.keeps_ofPool n state).calls before
      refine ⟨h, hsteps, hkeeps, hkeeps.available_add, hkeeps.exhausted_iff, fun a => ?_⟩
      obtain ⟨h', hstep, hkeeps'⟩ := hkeeps.call a
      exact ⟨h', hstep, hkeeps', fun i => hstep.state_eq⟩

/-- Two connections are asked for. -/
def twoConnections : StoreConfig := { StoreConfig.default with poolSize := 2 }

/-- A connection that counts. -/
def counters (i : Nat) : Except ServerError Nat := .ok (10 * i)

/-- A connection that can be opened once only. -/
def onlyFirst (i : Nat) : Except ServerError Nat :=
  if i = 0 then .ok 0 else .error (.store "down")

/-- One connection is taken, changed and dropped, and the next who asks is given it as it was left.
Someone else is given the other one, and then there is none. -/
def counted : List (StoreCall Nat) :=
  [.acquire "a", .modify "a" (· + 7), .release "a", .acquire "b", .acquire "c", .acquire "d"]

/-- The rules are kept with two connections, and where the second one cannot be opened there is no
pool. -/
theorem conserved_twoConnections :
    (∃ p, ofConfig twoConnections counters = (.ok p, 2) ∧
      ((StoreDesk.ofPool p).calls counted).1 =
        [.acquired (some 10), .modified (some 17), .released true, .acquired (some 17),
          .acquired (some 0), .acquired none] ∧
      ∃ h, Holdings.Steps 2 (.ofStates (10 * ·)) counted ((StoreDesk.ofPool p).calls counted).1 h ∧
        ((StoreDesk.ofPool p).calls counted).2.Keeps 2 h) ∧
      ofConfig twoConnections onlyFirst =
        (.error (.storeConnection 1 twoConnections.url (.store "down")), 2) := by
  obtain ⟨-, hopened⟩ := conserved_of_ofConfig twoConnections counters
  obtain ⟨p, hp, -, hcalls⟩ := hopened (10 * ·) fun _ _ => rfl
  obtain ⟨h, hsteps, hkeeps, -⟩ := hcalls counted
  obtain ⟨hfailed, -⟩ := conserved_of_ofConfig twoConnections onlyFirst
  have hfirst : ∀ j < 1, ∃ c, onlyFirst j = .ok c := by
    intro j hj
    rw [Nat.lt_one_iff.1 hj]
    exact ⟨0, rfl⟩
  refine ⟨⟨p, hp, ?_, h, hsteps, hkeeps⟩, (hfailed 1 (by decide) _ hfirst rfl).1⟩
  have hpool : p = ⟨2, [10, 0]⟩ := by
    cases hp
    rfl
  rw [hpool]
  rfl

end Conservation

end StorePool

end HttpServer
