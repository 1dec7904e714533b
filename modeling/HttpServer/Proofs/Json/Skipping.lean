import HttpServer.Proofs.Json.Grammar

/-!
# Passing over values

A value of which nothing is needed is passed over from its first token to its last, with a stack of
the brackets that are still open in place of a tree. `Skipped` says so of one text, under whatever
brackets it stands and with whatever number of steps is left, as long as that is no less than its
length; and every well-formed value is skipped.
-/

namespace HttpServer

namespace Json.Scan

variable {v t x r rest g : Bytes} {fuel : Nat} {outer : List Frame}

/-- A value is passed over, in no more steps than it has bytes. -/
def Skipped (v : Bytes) : Prop :=
  ∀ (fuel : Nat) (outer : List Frame) (g rest : Bytes), Gap g → Delimited rest → v.length ≤ fuel →
    ∃ fuel', fuel ≤ fuel' + v.length ∧
      skipFrom fuel outer (g ++ (v ++ rest)) = skipFrom.skipAfter fuel' outer rest

section Steps

theorem skipAfter_nil (fuel : Nat) (bs : Bytes) : skipFrom.skipAfter fuel [] bs = .ok bs := by
  cases fuel <;> rfl

theorem skipAfter_comma_list (hg : Gap g) (r : Bytes) :
    skipFrom.skipAfter (fuel + 1) (.list :: outer) (g ++ comma :: r) =
      skipFrom fuel (.list :: outer) r := by
  rw [skipFrom.skipAfter, dropGap_token hg rfl]
  rfl

theorem skipAfter_comma_object (hg : Gap g) (h : skipName r = .ok rest) :
    skipFrom.skipAfter (fuel + 1) (.object :: outer) (g ++ comma :: r) =
      skipFrom fuel (.object :: outer) rest := by
  rw [skipFrom.skipAfter, dropGap_token hg rfl]
  simp only [if_true, h]

theorem skipAfter_close (frame : Frame) (hg : Gap g) (r : Bytes) :
    skipFrom.skipAfter (fuel + 1) (frame :: outer) (g ++ frame.close :: r) =
      skipFrom.skipAfter fuel outer r := by
  have hclose : isGap frame.close = false ∧ frame.close ≠ comma := by
    cases frame <;> decide
  rw [skipFrom.skipAfter, dropGap_token hg hclose.1]
  simp only [if_neg hclose.2, if_true]

theorem skipFrom_empty_list (hg : Gap g) {g' : Bytes} (hg' : Gap g') (r : Bytes) :
    skipFrom (fuel + 1) outer (g ++ 91 :: (g' ++ 93 :: r)) =
      skipFrom.skipAfter fuel outer r := by
  rw [skipFrom, dropGap_token hg rfl]
  simp only [if_true, dropGap_token hg' (b := 93) rfl]

theorem skipFrom_list (hg : Gap g) {c : UInt8} {s : Bytes} (h : dropGap r = c :: s) (hc : c ≠ 93) :
    skipFrom (fuel + 1) outer (g ++ 91 :: r) = skipFrom fuel (.list :: outer) r := by
  rw [skipFrom, dropGap_token hg rfl]
  simp only [if_true, h, if_neg hc]

theorem skipFrom_empty_object (hg : Gap g) {g' : Bytes} (hg' : Gap g') (r : Bytes) :
    skipFrom (fuel + 1) outer (g ++ 123 :: (g' ++ 125 :: r)) =
      skipFrom.skipAfter fuel outer r := by
  rw [skipFrom, dropGap_token hg rfl]
  simp only [if_neg (by decide : ¬(123 : UInt8) = 91), if_true,
    dropGap_token hg' (b := 125) rfl]

theorem skipFrom_object (hg : Gap g) {c : UInt8} {s : Bytes} (h : dropGap r = c :: s)
    (hc : c ≠ 125) (hname : skipName r = .ok rest) :
    skipFrom (fuel + 1) outer (g ++ 123 :: r) = skipFrom fuel (.object :: outer) rest := by
  rw [skipFrom, dropGap_token hg rfl]
  simp only [if_neg (by decide : ¬(123 : UInt8) = 91), if_true, h, if_neg hc, hname]

theorem skipFrom_scalar (hg : Gap g) {b : UInt8} (hb : isGap b = false) (hlist : b ≠ 91)
    (hobject : b ≠ 123) (h : skipScalar (b :: r) = .ok rest) :
    skipFrom (fuel + 1) outer (g ++ b :: r) = skipFrom.skipAfter fuel outer rest := by
  rw [skipFrom, dropGap_token hg hb]
  simp only [if_neg hlist, if_neg hobject, h]

end Steps

section Scalars

theorem literal_append (cs rest : Bytes) : literal cs (cs ++ rest) = .ok rest := by
  induction cs with
  | nil => cases rest <;> rfl
  | cons c cs ih =>
      rw [List.cons_append, literal, if_pos rfl]
      exact ih

/-- A byte with which a value may begin. -/
def Begins (b : UInt8) : Prop :=
  isGap b = false ∧ b ≠ 93 ∧ b ≠ 125

instance (b : UInt8) : Decidable (Begins b) :=
  inferInstanceAs (Decidable (_ ∧ _))

theorem begins_of_isDigit {b : UInt8} (h : Bytes.isDigit b = true) :
    Begins b ∧ b ≠ 91 ∧ b ≠ 123 ∧ b ≠ 110 ∧ b ≠ 116 ∧ b ≠ 102 ∧ b ≠ 34 ∧ b ≠ 45 := by
  have hne (c : UInt8) (hc : Bytes.isDigit c = false) : b ≠ c := by
    rintro rfl
    rw [h] at hc
    cases hc
  refine ⟨⟨?_, hne _ rfl, hne _ rfl⟩, hne _ rfl, hne _ rfl, hne _ rfl, hne _ rfl, hne _ rfl,
    hne _ rfl, hne _ rfl⟩
  unfold isGap
  simp only [Bool.or_eq_false_iff, beq_eq_false_iff_ne]
  exact ⟨⟨⟨hne _ rfl, hne _ rfl⟩, hne _ rfl⟩, hne _ rfl⟩

/-- A text that is passed over as a scalar is skipped. -/
theorem skipped_of_scalar {b : UInt8} (hb : Begins b) (hlist : b ≠ 91) (hobject : b ≠ 123)
    (h : ∀ rest, Delimited rest → skipScalar (b :: (r ++ rest)) = .ok rest) : Skipped (b :: r) := by
  intro fuel outer g rest hg hrest hfuel
  obtain ⟨fuel, rfl⟩ : ∃ k, fuel = k + 1 := ⟨fuel - 1, by simp only [List.length_cons] at hfuel; omega⟩
  refine ⟨fuel, by simp only [List.length_cons]; omega, ?_⟩
  exact skipFrom_scalar hg hb.1 hlist hobject (h rest hrest)

theorem skipped_number {m : Bytes} (h : Magnitude m) : Skipped m ∧ ∃ b r, m = b :: r ∧ Begins b := by
  obtain ⟨d, s, hm, hd⟩ : ∃ d s, m = d :: s ∧ Bytes.isDigit d = true := by
    cases h with
    | parts hwhole _ _ =>
        obtain ⟨d, ds, rfl⟩ := List.exists_cons_of_ne_nil hwhole.1.1
        exact ⟨d, _, rfl, hwhole.1.2 d List.mem_cons_self⟩
  obtain ⟨hbegins, hlist, hobject, hnull, htrue, hfalse, hquote, hminus⟩ := begins_of_isDigit hd
  subst hm
  refine ⟨skipped_of_scalar hbegins hlist hobject ?_, d, s, rfl, hbegins⟩
  intro rest hrest
  rw [skipScalar.eq_def]
  simp only [if_neg hnull, if_neg htrue, if_neg hfalse, if_neg hquote, if_neg hminus, hd, if_true]
  exact h.skipMagnitude_append hrest

theorem skipped_negative {m : Bytes} (h : Magnitude m) : Skipped (45 :: m) :=
  skipped_of_scalar (by decide) (by decide) (by decide) fun _ hrest => h.skipMagnitude_append hrest

theorem skipped_string (h : Inside t) : Skipped (34 :: (t ++ [34])) := by
  refine skipped_of_scalar (by decide) (by decide) (by decide) fun rest _ => ?_
  rw [List.append_assoc]
  exact h.skipString_eq rest

end Scalars

section Nested

/-- The name of a member is passed over. -/
theorem skipName_eq {g' : Bytes} (hg : Gap g) (h : Inside t) (hg' : Gap g') (r : Bytes) :
    skipName (g ++ 34 :: (t ++ 34 :: (g' ++ Bytes.colon :: r))) = .ok r := by
  rw [skipName, dropGap_token hg rfl]
  simp only [if_true, h.skipString_eq, dropGap_token hg' (b := Bytes.colon) rfl, expect]

/-- The items of a list are passed over, up to the closing bracket. -/
theorem ItemsText.skip {vs : List Bytes} (h : ItemsText vs t) (hvs : ∀ v ∈ vs, Skipped v)
    (fuel : Nat) (outer : List Frame) (rest : Bytes) (hfuel : t.length ≤ fuel) :
    ∃ fuel', fuel ≤ fuel' + t.length ∧
      skipFrom fuel (.list :: outer) (t ++ rest) = skipFrom.skipAfter fuel' outer rest := by
  induction h generalizing fuel with
  | @last v x hx =>
      cases hx with
      | @spaced g _ g' hg hg' =>
          simp only [List.length_append, List.length_singleton] at hfuel ⊢
          obtain ⟨k, hk, hskip⟩ := hvs v List.mem_cons_self fuel (.list :: outer) g
            (g' ++ 93 :: rest) hg (delimited_token hg' (by decide) rest) (by omega)
          obtain ⟨k, rfl⟩ : ∃ n, k = n + 1 := ⟨k - 1, by omega⟩
          refine ⟨k, by omega, ?_⟩
          simp only [List.append_assoc, List.singleton_append]
          rw [hskip]
          exact skipAfter_close .list hg' rest
  | @more v x r vs hx _ ih =>
      rw [List.forall_mem_cons] at hvs
      cases hx with
      | @spaced g _ g' hg hg' =>
          simp only [List.length_append, List.length_cons] at hfuel ⊢
          obtain ⟨k, hk, hskip⟩ := hvs.1 fuel (.list :: outer) g (g' ++ comma :: (r ++ rest)) hg
            (delimited_token hg' (by decide) _) (by omega)
          obtain ⟨k, rfl⟩ : ∃ n, k = n + 1 := ⟨k - 1, by omega⟩
          obtain ⟨k', hk', hrest⟩ := ih hvs.2 k (by omega)
          refine ⟨k', by omega, ?_⟩
          simp only [List.append_assoc, List.cons_append]
          rw [hskip, skipAfter_comma_list hg', hrest]

/-- The members of an object are passed over, up to the closing bracket. -/
theorem MembersText.skip {naming : Naming} {ms : List (Bytes × Bytes)}
    (h : MembersText naming ms t) (hnaming : ∀ t name, naming t name → Inside t)
    (hms : ∀ m ∈ ms, Skipped m.2) (fuel : Nat) (outer : List Frame) (rest : Bytes)
    (hfuel : t.length ≤ fuel) :
    ∃ r fuel', fuel ≤ fuel' + t.length ∧ skipName (t ++ rest) = .ok r ∧
      skipFrom fuel (.object :: outer) r = skipFrom.skipAfter fuel' outer rest := by
  induction h generalizing fuel with
  | last hx =>
      cases hx with
      | @spaced g t g₁ g₂ v g₃ name hg ht hg₁ hg₂ hg₃ =>
          have hv : Skipped v := hms (name, v) List.mem_cons_self
          simp only [List.length_append, List.length_cons, List.length_nil] at hfuel ⊢
          obtain ⟨k, hk, hskip⟩ := hv fuel (.object :: outer) g₂
            (g₃ ++ 125 :: rest) hg₂ (delimited_token hg₃ (by decide) rest) (by omega)
          obtain ⟨k, rfl⟩ : ∃ n, k = n + 1 := ⟨k - 1, by omega⟩
          refine ⟨g₂ ++ (v ++ (g₃ ++ 125 :: rest)), k, by omega, ?_, ?_⟩
          · simp only [List.append_assoc, List.cons_append, List.nil_append]
            exact skipName_eq hg (hnaming t name ht) hg₁ _
          · rw [hskip]
            exact skipAfter_close .object hg₃ rest
  | @more m x r ms hx _ ih =>
      rw [List.forall_mem_cons] at hms
      cases hx with
      | @spaced g t g₁ g₂ v g₃ name hg ht hg₁ hg₂ hg₃ =>
          have hv : Skipped v := hms.1
          simp only [List.length_append, List.length_cons] at hfuel ⊢
          obtain ⟨k, hk, hskip⟩ := hv fuel (.object :: outer) g₂
            (g₃ ++ comma :: (r ++ rest)) hg₂ (delimited_token hg₃ (by decide) _) (by omega)
          obtain ⟨k, rfl⟩ : ∃ n, k = n + 1 := ⟨k - 1, by omega⟩
          obtain ⟨r', k', hk', hname, hrest⟩ := ih hms.2 k (by omega)
          refine ⟨g₂ ++ (v ++ (g₃ ++ comma :: (r ++ rest))), k', by omega, ?_, ?_⟩
          · simp only [List.append_assoc, List.cons_append]
            exact skipName_eq hg (hnaming t name ht) hg₁ _
          · rw [hskip, skipAfter_comma_object hg₃ hname, hrest]

/-- The first token of the items of a list. -/
theorem ItemsText.dropGap_eq {vs : List Bytes} (h : ItemsText vs t)
    (hvs : ∀ v ∈ vs, ∃ b r, v = b :: r ∧ Begins b) (rest : Bytes) :
    ∃ c s, dropGap (t ++ rest) = c :: s ∧ c ≠ 93 := by
  have hitem {v x : Bytes} (hx : ItemText v x) (hv : ∃ b r, v = b :: r ∧ Begins b) (s : Bytes) :
      ∃ c s', dropGap (x ++ s) = c :: s' ∧ c ≠ 93 := by
    cases hx with
    | spaced hg hg' =>
        obtain ⟨b, r, rfl, hb⟩ := hv
        simp only [List.append_assoc, List.cons_append]
        exact ⟨b, _, dropGap_token hg hb.1 _, hb.2.1⟩
  cases h with
  | last hx =>
      rw [List.append_assoc]
      exact hitem hx (hvs _ List.mem_cons_self) _
  | more hx _ =>
      rw [List.append_assoc]
      exact hitem hx (hvs _ List.mem_cons_self) _

/-- The first token of the members of an object is a quote. -/
theorem MembersText.dropGap_eq {naming : Naming} {ms : List (Bytes × Bytes)}
    (h : MembersText naming ms t) (rest : Bytes) : ∃ s, dropGap (t ++ rest) = 34 :: s := by
  have hmember {m : Bytes × Bytes} {x : Bytes} (hx : MemberText naming m x) (s : Bytes) :
      ∃ s', dropGap (x ++ s) = 34 :: s' := by
    cases hx with
    | spaced hg _ _ _ _ =>
        simp only [List.append_assoc, List.cons_append]
        exact ⟨_, dropGap_token hg rfl _⟩
  cases h with
  | last hx =>
      rw [List.append_assoc]
      exact hmember hx _
  | more hx _ =>
      rw [List.append_assoc]
      exact hmember hx _

/-- A list of values that are skipped is skipped. -/
theorem ListText.skipped {vs : List Bytes} (h : ListText vs t)
    (hvs : ∀ v ∈ vs, Skipped v ∧ ∃ b r, v = b :: r ∧ Begins b) : Skipped t := by
  intro fuel outer g rest hg _ hfuel
  obtain ⟨fuel, rfl⟩ : ∃ k, fuel = k + 1 := by
    cases h <;> exact ⟨fuel - 1, by simp only [List.length_cons] at hfuel; omega⟩
  cases h with
  | empty hg' =>
      refine ⟨fuel, by simp only [List.length_cons]; omega, ?_⟩
      simp only [List.cons_append, List.append_assoc, List.nil_append]
      exact skipFrom_empty_list hg hg' rest
  | items ht =>
      rename_i t
      obtain ⟨c, s, hdrop, hc⟩ := ht.dropGap_eq (fun v hv => (hvs v hv).2) rest
      obtain ⟨k, hk, hskip⟩ := ht.skip (fun v hv => (hvs v hv).1) fuel outer rest
        (Nat.le_of_succ_le_succ hfuel)
      refine ⟨k, by simp only [List.length_cons]; omega, ?_⟩
      rw [List.cons_append, skipFrom_list hg hdrop hc, hskip]

/-- An object whose values are skipped is skipped. -/
theorem ObjectText.skipped {naming : Naming} {ms : List (Bytes × Bytes)}
    (h : ObjectText naming ms t) (hnaming : ∀ t name, naming t name → Inside t)
    (hms : ∀ m ∈ ms, Skipped m.2) : Skipped t := by
  intro fuel outer g rest hg _ hfuel
  obtain ⟨fuel, rfl⟩ : ∃ k, fuel = k + 1 := by
    cases h <;> exact ⟨fuel - 1, by simp only [List.length_cons] at hfuel; omega⟩
  cases h with
  | empty hg' =>
      refine ⟨fuel, by simp only [List.length_cons]; omega, ?_⟩
      simp only [List.cons_append, List.append_assoc, List.nil_append]
      exact skipFrom_empty_object hg hg' rest
  | members ht =>
      rename_i t
      obtain ⟨s, hdrop⟩ := ht.dropGap_eq rest
      obtain ⟨r, k, hk, hname, hskip⟩ := ht.skip hnaming hms fuel outer rest
        (Nat.le_of_succ_le_succ hfuel)
      refine ⟨k, by simp only [List.length_cons]; omega, ?_⟩
      rw [List.cons_append, skipFrom_object hg hdrop (by decide) hname, hskip]

/-- A well-formed value begins with a token of its own, and is skipped. -/
theorem Value.skipped_begins (h : Value v) : Skipped v ∧ ∃ b r, v = b :: r ∧ Begins b := by
  induction h with
  | null =>
      exact ⟨skipped_of_scalar (by decide) (by decide) (by decide) fun rest _ =>
        literal_append (Bytes.ascii "ull") rest, 110, _, rfl, by decide⟩
  | true =>
      exact ⟨skipped_of_scalar (by decide) (by decide) (by decide) fun rest _ =>
        literal_append (Bytes.ascii "rue") rest, 116, _, rfl, by decide⟩
  | false =>
      exact ⟨skipped_of_scalar (by decide) (by decide) (by decide) fun rest _ =>
        literal_append (Bytes.ascii "alse") rest, 102, _, rfl, by decide⟩
  | number hm => exact skipped_number hm
  | negative hm => exact ⟨skipped_negative hm, 45, _, rfl, by decide⟩
  | string ht => exact ⟨skipped_string ht, 34, _, rfl, by decide⟩
  | list ht _ ih =>
      refine ⟨ht.skipped ih, ?_⟩
      cases ht with
      | empty _ => exact ⟨91, _, rfl, by decide⟩
      | items _ => exact ⟨91, _, rfl, by decide⟩
  | object ht _ ih =>
      refine ⟨ht.skipped (fun _ _ h => h) fun m hm => (ih m hm).1, ?_⟩
      cases ht with
      | empty _ => exact ⟨123, _, rfl, by decide⟩
      | members _ => exact ⟨123, _, rfl, by decide⟩

/-- A well-formed value that stands by itself is passed over. -/
theorem Value.skipFrom_eq (h : Value v) (hg : Gap g) (hrest : Delimited rest)
    (hfuel : v.length ≤ fuel) : skipFrom fuel [] (g ++ (v ++ rest)) = .ok rest := by
  obtain ⟨k, -, hskip⟩ := h.skipped_begins.1 fuel [] g rest hg hrest hfuel
  rw [hskip, skipAfter_nil]

end Nested

end Json.Scan

end HttpServer
