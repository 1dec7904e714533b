import HttpServer.Proofs.Json.Strings

/-!
# Well-formed values

`Value` is the grammar of JSON: literals, numbers, strings, lists and objects, with any blanks
between the tokens and nested to any depth. `ItemsText` and `MembersText` say how items and members
are laid out behind an opening bracket; what is between the quotes of a name is left to a relation,
so that the same layout serves for objects that are only passed over and for those whose names
matter.

A number is the one value that could go on, which is why what follows a value has to be `Delimited`.
A well-formed value is UTF-8, and so is every text that is laid out of such values.
-/

namespace HttpServer

namespace Json.Scan

section Tokens

/-- Nothing but blanks. -/
def Gap (g : Bytes) : Prop :=
  ∀ b ∈ g, isGap b = true

/-- What may stand behind a value: nothing, a blank, a comma or a closing bracket. -/
def Delimited (r : Bytes) : Prop :=
  ∀ b ∈ r.head?, isGap b = true ∨ b = comma ∨ b = 93 ∨ b = 125

/-- One digit or more. -/
def Digits (ds : Bytes) : Prop :=
  ds ≠ [] ∧ ∀ d ∈ ds, Bytes.isDigit d = true

/-- The whole part of a number. A zero at its front stands alone. -/
def Whole (ds : Bytes) : Prop :=
  Digits ds ∧ (ds.head? = some 48 → ds = [48])

/-- The fraction of a number, if it has one. -/
inductive Fraction : Bytes → Prop where
  | none : Fraction []
  | some {ds : Bytes} : Digits ds → Fraction (46 :: ds)

/-- The exponent of a number, if it has one. -/
inductive Exponent : Bytes → Prop where
  | none : Exponent []
  | unsigned {b : UInt8} {ds : Bytes} : b = 101 ∨ b = 69 → Digits ds → Exponent (b :: ds)
  | signed {b c : UInt8} {ds : Bytes} : b = 101 ∨ b = 69 → c = 43 ∨ c = 45 → Digits ds →
      Exponent (b :: c :: ds)

/-- A number without its sign. -/
inductive Magnitude : Bytes → Prop where
  | parts {ds f e : Bytes} : Whole ds → Fraction f → Exponent e → Magnitude (ds ++ (f ++ e))

end Tokens

section Layout

/-- A value with blanks around it. -/
inductive ItemText : Bytes → Bytes → Prop where
  | spaced {g v g' : Bytes} : Gap g → Gap g' → ItemText v (g ++ (v ++ g'))

/-- The items of a list from one on, up to the closing bracket. -/
inductive ItemsText : List Bytes → Bytes → Prop where
  | last {v x : Bytes} : ItemText v x → ItemsText [v] (x ++ [93])
  | more {v x r : Bytes} {vs : List Bytes} : ItemText v x → ItemsText vs r →
      ItemsText (v :: vs) (x ++ comma :: r)

/-- The items of a list and its text. -/
inductive ListText : List Bytes → Bytes → Prop where
  | empty {g : Bytes} : Gap g → ListText [] (91 :: (g ++ [93]))
  | items {vs : List Bytes} {t : Bytes} : ItemsText vs t → ListText vs (91 :: t)

/-- How what stands between the quotes of a name is related to the name. -/
abbrev Naming := Bytes → Bytes → Prop

/-- A member, that is a name and the text of a value, as it is written with blanks in between and
around. -/
inductive MemberText (naming : Naming) : Bytes × Bytes → Bytes → Prop where
  | spaced {g t g₁ g₂ v g₃ name : Bytes} : Gap g → naming t name → Gap g₁ → Gap g₂ → Gap g₃ →
      MemberText naming (name, v)
        (g ++ 34 :: (t ++ 34 :: (g₁ ++ Bytes.colon :: (g₂ ++ (v ++ g₃)))))

/-- The members of an object from one on, up to the closing bracket. -/
inductive MembersText (naming : Naming) : List (Bytes × Bytes) → Bytes → Prop where
  | last {m : Bytes × Bytes} {x : Bytes} : MemberText naming m x →
      MembersText naming [m] (x ++ [125])
  | more {m : Bytes × Bytes} {x r : Bytes} {ms : List (Bytes × Bytes)} : MemberText naming m x →
      MembersText naming ms r → MembersText naming (m :: ms) (x ++ comma :: r)

/-- The members of an object and its text. -/
inductive ObjectText (naming : Naming) : List (Bytes × Bytes) → Bytes → Prop where
  | empty {g : Bytes} : Gap g → ObjectText naming [] (123 :: (g ++ [125]))
  | members {ms : List (Bytes × Bytes)} {t : Bytes} : MembersText naming ms t →
      ObjectText naming ms (123 :: t)

end Layout

/-- A well-formed value. -/
inductive Value : Bytes → Prop where
  | null : Value (Bytes.ascii "null")
  | true : Value (Bytes.ascii "true")
  | false : Value (Bytes.ascii "false")
  | number {m : Bytes} : Magnitude m → Value m
  | negative {m : Bytes} : Magnitude m → Value (45 :: m)
  | string {t : Bytes} : Inside t → Value (34 :: (t ++ [34]))
  | list {vs : List Bytes} {t : Bytes} : ListText vs t → (∀ v ∈ vs, Value v) → Value t
  | object {ms : List (Bytes × Bytes)} {t : Bytes} : ObjectText (fun t _ => Inside t) ms t →
      (∀ m ∈ ms, Value m.2) → Value t

section Gaps

variable {g r ds : Bytes} {b : UInt8}

theorem gap_nil : Gap [] := nofun

theorem dropGap_append (h : Gap g) (r : Bytes) : dropGap (g ++ r) = dropGap r := by
  induction g with
  | nil => rfl
  | cons b g ih =>
      have hb := List.forall_mem_cons.1 h
      rw [List.cons_append, dropGap, List.dropWhile_cons_of_pos hb.1]
      exact ih hb.2

theorem dropGap_of_token (h : isGap b = false) (r : Bytes) : dropGap (b :: r) = b :: r :=
  List.dropWhile_cons_of_neg (by rw [h]; exact Bool.false_ne_true)

/-- The next token behind some blanks. -/
theorem dropGap_token (h : Gap g) (hb : isGap b = false) (r : Bytes) :
    dropGap (g ++ b :: r) = b :: r := by
  rw [dropGap_append h, dropGap_of_token hb]

theorem delimited_nil : Delimited [] := nofun

theorem delimited_token (h : Gap g) (hb : b = comma ∨ b = 93 ∨ b = 125) (r : Bytes) :
    Delimited (g ++ b :: r) := by
  cases g with
  | nil =>
      intro c hc
      cases hc
      exact Or.inr hb
  | cons c g =>
      intro d hd
      cases hd
      exact Or.inl (h c List.mem_cons_self)

/-- What follows a value does not go on as a number. -/
theorem Delimited.head_cases (h : Delimited (b :: r)) : Bytes.isDigit b = false ∧ b ≠ 46 ∧
    b ≠ 101 ∧ b ≠ 69 := by
  have hb : b = 32 ∨ b = 9 ∨ b = 10 ∨ b = 13 ∨ b = 44 ∨ b = 93 ∨ b = 125 := by
    have hcases := h b rfl
    unfold isGap comma at hcases
    simp only [Bool.or_eq_true, beq_iff_eq, or_assoc] at hcases
    exact hcases
  rcases hb with rfl | rfl | rfl | rfl | rfl | rfl | rfl <;> decide

end Gaps

section Numbers

variable {ds f e m r rest : Bytes}

/-- What follows digits is not one. -/
def Undigited (r : Bytes) : Prop :=
  ∀ b ∈ r.head?, Bytes.isDigit b = false

theorem Delimited.undigited (h : Delimited r) : Undigited r := by
  intro b hb
  cases r with
  | nil => cases hb
  | cons c r =>
      cases hb
      exact h.head_cases.1

theorem spanDigits_append (h : ∀ d ∈ ds, Bytes.isDigit d = true) (hr : Undigited r) :
    spanDigits (ds ++ r) = (ds, r) := by
  have htake : r.takeWhile Bytes.isDigit = [] ∧ r.dropWhile Bytes.isDigit = r := by
    cases r with
    | nil => exact ⟨rfl, rfl⟩
    | cons b r =>
        have hb : ¬Bytes.isDigit b = true := by
          rw [hr b rfl]
          exact Bool.false_ne_true
        exact ⟨List.takeWhile_cons_of_neg hb, List.dropWhile_cons_of_neg hb⟩
  rw [spanDigits, List.takeWhile_append_of_pos h, List.dropWhile_append_of_pos h, htake.1, htake.2,
    List.append_nil]

theorem Exponent.undigited (h : Exponent e) (hr : Delimited rest) : Undigited (e ++ rest) := by
  cases h with
  | none => exact hr.undigited
  | unsigned hb _ =>
      intro c hc
      cases hc
      rcases hb with rfl | rfl <;> rfl
  | signed hb _ _ =>
      intro c hc
      cases hc
      rcases hb with rfl | rfl <;> rfl

/-- What follows the whole part of a number, if it is no fraction, has no point. -/
theorem Exponent.ne_point (h : Exponent e) (hrest : Delimited rest) (r : Bytes) :
    e ++ rest ≠ 46 :: r := by
  intro hr
  cases h with
  | none =>
      rw [List.nil_append] at hr
      rw [hr] at hrest
      exact hrest.head_cases.2.1 rfl
  | unsigned hb _ =>
      cases hr
      rcases hb with hb | hb <;> cases hb
  | signed hb _ _ =>
      cases hr
      rcases hb with hb | hb <;> cases hb

theorem skipExponent_signed {c : UInt8} (hc : c = 43 ∨ c = 45) (h : Digits ds)
    (hrest : Delimited rest) : skipExponent (c :: (ds ++ rest)) = .ok rest := by
  have hspan := spanDigits_append h.2 hrest.undigited
  obtain ⟨d, ds, rfl⟩ := List.exists_cons_of_ne_nil h.1
  rcases hc with rfl | rfl
  · simp only [skipExponent, hspan]
  · simp only [skipExponent, hspan]

theorem skipExponent_unsigned (h : Digits ds) (hrest : Delimited rest) :
    skipExponent (ds ++ rest) = .ok rest := by
  have hspan := spanDigits_append h.2 hrest.undigited
  obtain ⟨d, ds, rfl⟩ := List.exists_cons_of_ne_nil h.1
  have hd := h.2 d List.mem_cons_self
  have hplus : d ≠ 43 := by
    rintro rfl
    cases hd
  have hminus : d ≠ 45 := by
    rintro rfl
    cases hd
  rw [skipExponent.eq_def]
  rw [List.cons_append] at hspan ⊢
  split
  · rename_i hr
    exact absurd (List.cons.inj hr).1 hplus
  · rename_i hr
    exact absurd (List.cons.inj hr).1 hminus
  · simp only [hspan]

theorem skipExponentOrEnd_append (h : Exponent e) (hrest : Delimited rest) :
    skipExponentOrEnd (e ++ rest) = .ok rest := by
  cases h with
  | none =>
      rw [List.nil_append, skipExponentOrEnd.eq_def]
      split
      · exact absurd rfl hrest.head_cases.2.2.1
      · exact absurd rfl hrest.head_cases.2.2.2
      · rfl
  | unsigned hb hds =>
      rcases hb with rfl | rfl
      · exact skipExponent_unsigned hds hrest
      · exact skipExponent_unsigned hds hrest
  | signed hb hc hds =>
      rcases hb with rfl | rfl
      · exact skipExponent_signed hc hds hrest
      · exact skipExponent_signed hc hds hrest

/-- A number is passed over, behind its sign. -/
theorem Magnitude.skipMagnitude_append (h : Magnitude m) (hrest : Delimited rest) :
    skipMagnitude (m ++ rest) = .ok rest := by
  obtain ⟨hwhole, hfraction, hexponent⟩ := h
  rename_i ds f e
  obtain ⟨⟨hne, hdigits⟩, hzero⟩ := hwhole
  have hspan : spanDigits (ds ++ (f ++ e) ++ rest) = (ds, f ++ (e ++ rest)) := by
    rw [List.append_assoc, List.append_assoc]
    apply spanDigits_append hdigits
    cases hfraction with
    | none => exact hexponent.undigited hrest
    | some _ =>
        intro b hb
        cases hb
        rfl
  rw [skipMagnitude, hspan]
  cases ds with
  | nil => exact absurd rfl hne
  | cons d ds =>
      have hlead : ¬(d = 48 ∧ ds ≠ []) := by
        rintro ⟨rfl, hds⟩
        exact hds (List.cons.inj (hzero rfl)).2
      simp only [if_neg hlead]
      cases hfraction with
      | none =>
          rw [List.nil_append]
          split
          · rename_i r hr
            exact absurd hr (hexponent.ne_point hrest r)
          · exact skipExponentOrEnd_append hexponent hrest
      | some hds =>
          rename_i fs
          simp only [List.cons_append, spanDigits_append hds.2 (hexponent.undigited hrest)]
          cases fs with
          | nil => exact absurd rfl hds.1
          | cons d fs => exact skipExponentOrEnd_append hexponent hrest

end Numbers

section Validity

open Utf8 (Valid valid_append valid_ascii valid_cons valid_nil)

variable {g ds f e m t x v r : Bytes} {naming : Naming}

theorem Gap.valid (h : Gap g) : Valid g := by
  apply valid_ascii
  intro b hb
  have hgap := h b hb
  unfold isGap at hgap
  simp only [Bool.or_eq_true, beq_iff_eq] at hgap
  rcases hgap with ((rfl | rfl) | rfl) | rfl <;> decide

theorem Digits.valid (h : Digits ds) : Valid ds := by
  apply valid_ascii
  intro d hd
  have hdigit := h.2 d hd
  unfold Bytes.isDigit at hdigit
  rw [Bool.and_eq_true, decide_eq_true_eq, decide_eq_true_eq] at hdigit
  exact UInt8.lt_of_le_of_lt hdigit.2 (by decide)

theorem Fraction.valid (h : Fraction f) : Valid f := by
  cases h with
  | none => exact valid_nil
  | some hds => exact valid_cons (by decide) hds.valid

theorem Exponent.valid (h : Exponent e) : Valid e := by
  cases h with
  | none => exact valid_nil
  | unsigned hb hds =>
      refine valid_cons ?_ hds.valid
      rcases hb with rfl | rfl <;> decide
  | signed hb hc hds =>
      refine valid_cons ?_ (valid_cons ?_ hds.valid)
      · rcases hb with rfl | rfl <;> decide
      · rcases hc with rfl | rfl <;> decide

theorem Magnitude.valid (h : Magnitude m) : Valid m := by
  cases h with
  | parts hwhole hfraction hexponent =>
      exact valid_append hwhole.1.valid (valid_append hfraction.valid hexponent.valid)

theorem ItemText.valid (h : ItemText v x) (hv : Valid v) : Valid x := by
  cases h with
  | spaced hg hg' => exact valid_append hg.valid (valid_append hv hg'.valid)

theorem ListText.valid {vs : List Bytes} (h : ListText vs t) (hvs : ∀ v ∈ vs, Valid v) :
    Valid t := by
  have hitems {vs : List Bytes} {t : Bytes} (h : ItemsText vs t) (hvs : ∀ v ∈ vs, Valid v) :
      Valid t := by
    induction h with
    | last hx =>
        exact valid_append (hx.valid (hvs _ List.mem_cons_self)) (valid_cons (by decide) valid_nil)
    | more hx _ ih =>
        rw [List.forall_mem_cons] at hvs
        exact valid_append (hx.valid hvs.1) (valid_cons (by decide) (ih hvs.2))
  cases h with
  | empty hg =>
      exact valid_cons (by decide) (valid_append hg.valid (valid_cons (by decide) valid_nil))
  | items ht => exact valid_cons (by decide) (hitems ht hvs)

theorem MemberText.valid {m : Bytes × Bytes} (h : MemberText naming m x)
    (hnaming : ∀ t name, naming t name → Inside t) (hm : Valid m.2) : Valid x := by
  cases h with
  | spaced hg ht hg₁ hg₂ hg₃ =>
      refine valid_append hg.valid (valid_cons (by decide) ?_)
      refine valid_append (hnaming _ _ ht).valid (valid_cons (by decide) ?_)
      refine valid_append hg₁.valid (valid_cons (by decide) ?_)
      exact valid_append hg₂.valid (valid_append hm hg₃.valid)

theorem ObjectText.valid {ms : List (Bytes × Bytes)} (h : ObjectText naming ms t)
    (hnaming : ∀ t name, naming t name → Inside t) (hms : ∀ m ∈ ms, Valid m.2) : Valid t := by
  have hmembers {ms : List (Bytes × Bytes)} {t : Bytes} (h : MembersText naming ms t)
      (hms : ∀ m ∈ ms, Valid m.2) : Valid t := by
    induction h with
    | last hx =>
        exact valid_append (hx.valid hnaming (hms _ List.mem_cons_self))
          (valid_cons (by decide) valid_nil)
    | more hx _ ih =>
        rw [List.forall_mem_cons] at hms
        exact valid_append (hx.valid hnaming hms.1) (valid_cons (by decide) (ih hms.2))
  cases h with
  | empty hg =>
      exact valid_cons (by decide) (valid_append hg.valid (valid_cons (by decide) valid_nil))
  | members ht => exact valid_cons (by decide) (hmembers ht hms)

/-- A well-formed value is UTF-8. -/
theorem Value.valid (h : Value v) : Valid v := by
  induction h with
  | null => exact valid_ascii (by decide +kernel)
  | true => exact valid_ascii (by decide +kernel)
  | false => exact valid_ascii (by decide +kernel)
  | number hm => exact hm.valid
  | negative hm => exact valid_cons (by decide) hm.valid
  | string ht =>
      exact valid_cons (by decide) (valid_append ht.valid (valid_cons (by decide) valid_nil))
  | list ht _ ih => exact ht.valid ih
  | object ht _ ih => exact ht.valid (fun _ _ h => h) ih

end Validity

end Json.Scan

end HttpServer
