import HttpServer.Message.Request
import HttpServer.Proofs.Text.Encoding
import Mathlib.Algebra.Group.Nat.Defs

/-!
# Announced lengths

The value of a length field is a number with blanks around it. `Measures` says what such a value
looks like, and `lengthOf?_eq_some_iff` that these are the values that are read as a number, with
that number. Digits are those of ASCII, and blanks those of Unicode.
-/

namespace HttpServer

namespace Request

/-- A text stands for a number: decimal digits, perhaps behind a plus sign, of a number that fits
in 64 bits. -/
def Counts (cs : List Char) (n : Nat) : Prop :=
  ∃ sign ds, cs = sign ++ ds ∧ (sign = [] ∨ sign = ['+']) ∧ ds ≠ [] ∧
    (∀ c ∈ ds, c.isDigit = true) ∧ n = Nat.ofDigitChars 10 ds 0 ∧ n < 2 ^ 64

/-- A field value announces a length: a text that stands for it, with blanks around. -/
def Measures (value : Bytes) (n : Nat) : Prop :=
  ∃ before count after, value = Utf8.encode (String.ofList (before ++ count ++ after)) ∧
    (∀ c ∈ before, isBlank c = true) ∧ Counts count n ∧ ∀ c ∈ after, isBlank c = true

section Digits

theorem digit?_eq_some_iff {c : Char} {v : Nat} :
    Numeral.digit? 10 c = some v ↔ c.isDigit = true ∧ v = c.toNat - '0'.toNat := by
  have hdigit : c.isDigit = true ↔ 48 ≤ c.toNat ∧ c.toNat ≤ 57 := by
    simp only [Char.isDigit, Bool.and_eq_true, decide_eq_true_eq]
    exact Iff.rfl
  have hzero : '0'.toNat = 48 := rfl
  rw [hdigit, hzero]
  unfold Numeral.digit?
  simp only [Option.ite_none_right_eq_some, Option.some.injEq]
  split
  · omega
  · split
    · omega
    · split <;> omega

theorem ofDigits?_eq_some_iff {ds : List Char} {m n : Nat} :
    Numeral.ofDigits? 10 m ds = some n ↔
      (∀ c ∈ ds, c.isDigit = true) ∧ n = Nat.ofDigitChars 10 ds m := by
  induction ds generalizing m with
  | nil =>
      rw [Numeral.ofDigits?, Nat.ofDigitChars_nil, Option.some.injEq]
      exact ⟨fun h => ⟨fun c hc => absurd hc List.not_mem_nil, h.symm⟩, fun h => h.2.symm⟩
  | cons c ds ih =>
      rw [Numeral.ofDigits?, Option.bind_eq_some_iff, Nat.ofDigitChars_cons, List.forall_mem_cons]
      constructor
      · rintro ⟨v, hv, hrest⟩
        obtain ⟨hc, rfl⟩ := digit?_eq_some_iff.1 hv
        obtain ⟨hds, hn⟩ := ih.1 hrest
        exact ⟨⟨hc, hds⟩, hn⟩
      · rintro ⟨⟨hc, hds⟩, hn⟩
        exact ⟨_, digit?_eq_some_iff.2 ⟨hc, rfl⟩, ih.2 ⟨hds, hn⟩⟩

theorem below?_eq_some_iff {ds : List Char} {n : Nat} :
    Numeral.below? (greatestLength + 1) 10 ds = some n ↔
      ds ≠ [] ∧ (∀ c ∈ ds, c.isDigit = true) ∧ n = Nat.ofDigitChars 10 ds 0 ∧ n < 2 ^ 64 := by
  by_cases hds : ds = []
  · rw [Numeral.below?, if_pos hds]
    constructor
    · intro h
      cases h
    · intro h
      exact absurd hds h.1
  · rw [Numeral.below?_eq_filter _ _ hds, Option.filter_eq_some_iff, ofDigits?_eq_some_iff,
      decide_eq_true_eq, and_assoc]
    exact ⟨fun h => ⟨hds, h⟩, fun h => h.2⟩

theorem countOf?_eq_some_iff {cs : List Char} {n : Nat} :
    countOf? cs = some n ↔ Counts cs n := by
  constructor
  · intro h
    unfold countOf? at h
    split at h
    · rename_i ds
      obtain ⟨hne, hds, hn, hlt⟩ := below?_eq_some_iff.1 h
      exact ⟨['+'], ds, rfl, Or.inr rfl, hne, hds, hn, hlt⟩
    · obtain ⟨hne, hds, hn, hlt⟩ := below?_eq_some_iff.1 h
      exact ⟨[], cs, rfl, Or.inl rfl, hne, hds, hn, hlt⟩
  · rintro ⟨sign, ds, rfl, hsign, hne, hds, hn, hlt⟩
    have hcount := below?_eq_some_iff.2 ⟨hne, hds, hn, hlt⟩
    unfold countOf?
    rcases hsign with rfl | rfl
    · rw [List.nil_append]
      split
      · -- a plus sign is no digit
        exact absurd (hds '+' List.mem_cons_self) (by decide)
      · exact hcount
    · exact hcount

end Digits

section Blanks

/-- Only blanks are cut off. -/
theorem exists_trimBlank (cs : List Char) :
    ∃ before after, cs = before ++ trimBlank cs ++ after ∧ (∀ c ∈ before, isBlank c = true) ∧
      ∀ c ∈ after, isBlank c = true := by
  have htail : cs.dropWhile isBlank = trimBlank cs ++
      ((cs.dropWhile isBlank).reverse.takeWhile isBlank).reverse := by
    rw [trimBlank, ← List.reverse_append, List.takeWhile_append_dropWhile, List.reverse_reverse]
  refine ⟨cs.takeWhile isBlank, ((cs.dropWhile isBlank).reverse.takeWhile isBlank).reverse,
    ?_, ?_, ?_⟩
  · rw [List.append_assoc, ← htail, List.takeWhile_append_dropWhile]
  · exact List.all_eq_true.1 List.all_takeWhile
  · intro c hc
    exact List.all_eq_true.1 List.all_takeWhile c (List.mem_reverse.1 hc)

theorem dropWhile_isBlank {cs : List Char} (h : ∀ c ∈ cs, isBlank c = false) :
    cs.dropWhile isBlank = cs := by
  cases cs with
  | nil => rfl
  | cons c cs => rw [List.dropWhile_cons, h c List.mem_cons_self, if_neg (by decide)]

/-- The blanks around a text without blanks are all that is cut off. -/
theorem trimBlank_append {before cs after : List Char} (hbefore : ∀ c ∈ before, isBlank c = true)
    (hcs : ∀ c ∈ cs, isBlank c = false) (hne : cs ≠ [])
    (hafter : ∀ c ∈ after, isBlank c = true) : trimBlank (before ++ cs ++ after) = cs := by
  have hfront : (before ++ cs ++ after).dropWhile isBlank = cs ++ after := by
    rw [List.append_assoc, List.dropWhile_append_of_pos hbefore, List.dropWhile_append,
      dropWhile_isBlank hcs, if_neg (by rwa [List.isEmpty_iff])]
  have hback : (cs ++ after).reverse.dropWhile isBlank = cs.reverse := by
    rw [List.reverse_append,
      List.dropWhile_append_of_pos fun c hc => hafter c (List.mem_reverse.1 hc)]
    exact dropWhile_isBlank fun c hc => hcs c (List.mem_reverse.1 hc)
  rw [trimBlank, hfront, hback, List.reverse_reverse]

end Blanks

theorem isBlank_of_isDigit {c : Char} (h : c.isDigit = true) : isBlank c = false := by
  have hrange : 48 ≤ c.toNat ∧ c.toNat ≤ 57 := by
    simp only [Char.isDigit, Bool.and_eq_true, decide_eq_true_eq] at h
    exact h
  simp only [isBlank, Bool.or_eq_false_iff, Bool.and_eq_false_iff, decide_eq_false_iff_not,
    beq_eq_false_iff_ne]
  omega

theorem Counts.ne_nil {cs : List Char} {n : Nat} (h : Counts cs n) : cs ≠ [] := by
  obtain ⟨sign, ds, rfl, -, hne, -⟩ := h
  exact List.append_ne_nil_of_right_ne_nil sign hne

/-- A text that stands for a number consists of digits and the plus sign. -/
theorem Counts.mem {cs : List Char} {n : Nat} (h : Counts cs n) {c : Char} (hc : c ∈ cs) :
    c = '+' ∨ c.isDigit = true := by
  obtain ⟨sign, ds, rfl, hsign, -, hds, -⟩ := h
  rcases List.mem_append.1 hc with hc | hc
  · rcases hsign with rfl | rfl
    · exact absurd hc List.not_mem_nil
    · exact Or.inl (List.mem_singleton.1 hc)
  · exact Or.inr (hds c hc)

theorem Counts.isBlank {cs : List Char} {n : Nat} (h : Counts cs n) {c : Char} (hc : c ∈ cs) :
    isBlank c = false := by
  rcases h.mem hc with rfl | hdigit
  · decide
  · exact isBlank_of_isDigit hdigit

/-- A field value is read as a number exactly if it announces that number. -/
theorem lengthOf?_eq_some_iff {value : Bytes} {n : Nat} :
    lengthOf? value = some n ↔ Measures value n := by
  unfold lengthOf?
  rw [countOf?_eq_some_iff]
  constructor
  · intro h
    obtain ⟨before, after, hsplit, hbefore, hafter⟩ := exists_trimBlank (Utf8.lossy value)
    refine ⟨before, trimBlank (Utf8.lossy value), after, ?_, hbefore, h, hafter⟩
    rw [← hsplit]
    refine Utf8.eq_encode_of_lossy ?_
    rw [hsplit, List.mem_append, List.mem_append]
    -- what stands for a broken piece is neither a blank nor part of a number
    rintro ((hc | hc) | hc)
    · exact absurd (hbefore _ hc) (by decide)
    · rcases h.mem hc with hplus | hdigit
      · exact absurd hplus (by decide)
      · exact absurd hdigit (by decide)
    · exact absurd (hafter _ hc) (by decide)
  · rintro ⟨before, count, after, rfl, hbefore, hcount, hafter⟩
    rw [Utf8.lossy_encode, String.toList_ofList,
      trimBlank_append hbefore (fun c hc => hcount.isBlank hc) hcount.ne_nil hafter]
    exact hcount

end Request

end HttpServer
