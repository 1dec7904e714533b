import HttpServer.Json.Reader
import HttpServer.Proofs.Text.Encoding

/-!
# The inside of strings

A string may spell a text in many ways. `Spells` relates the inside of a string, from one quote to
the other, to the text: a character stands for itself, an escape by letter for one of eight
characters, and an escape by number for a character, or two of them for one beyond the first 65536.
`Inside` asks less: there the code units of escapes by number need not make up characters.

What spells a text is read as that text, and whatever may stand inside a string is passed over.
Quoting a text is one way to spell it.
-/

namespace HttpServer

namespace Json.Scan

/-- Four digits in base sixteen, and the code unit that they stand for. -/
inductive CodeUnit : Bytes → Nat → Prop where
  | digits {a b c d : UInt8} {w x y z : Nat} : hexValue? a = some w → hexValue? b = some x →
      hexValue? c = some y → hexValue? d = some z →
      CodeUnit [a, b, c, d] (((w * 16 + x) * 16 + y) * 16 + z)

/-- A character stands for itself inside a string. -/
def Unescaped (n : Nat) : Prop :=
  32 ≤ n ∧ n ≠ 34 ∧ n ≠ 92

/-- What may stand between the quotes of a string. -/
inductive Inside : Bytes → Prop where
  | nil : Inside []
  | char {p r : Bytes} {n : Nat} : Utf8.Spelling p n → Unescaped n → Inside r → Inside (p ++ r)
  | letter {e b : UInt8} {r : Bytes} : escaped? e = some b → Inside r → Inside (92 :: e :: r)
  | unit {u r : Bytes} {n : Nat} : CodeUnit u n → Inside r → Inside (92 :: 117 :: (u ++ r))

/-- What stands between the quotes of a string, and the text that it spells. -/
inductive Spells : Bytes → Bytes → Prop where
  | nil : Spells [] []
  | char {p r s : Bytes} {n : Nat} : Utf8.Spelling p n → Unescaped n → Spells r s →
      Spells (p ++ r) (p ++ s)
  | letter {e b : UInt8} {r s : Bytes} : escaped? e = some b → Spells r s →
      Spells (92 :: e :: r) (b :: s)
  | unit {u r s : Bytes} {n : Nat} : CodeUnit u n → isLow n = false → isHigh n = false →
      Spells r s →
      Spells (92 :: 117 :: (u ++ r)) (String.utf8EncodeChar (Char.ofNat n) ++ s)
  /-- Two code units make up one character. -/
  | pair {u v r s : Bytes} {n m : Nat} : CodeUnit u n → isHigh n = true → CodeUnit v m →
      isLow m = true → Spells r s →
      Spells (92 :: 117 :: (u ++ 92 :: 117 :: (v ++ r)))
        (String.utf8EncodeChar (Char.ofNat (0x10000 + (n - 0xD800) * 1024 + (m - 0xDC00))) ++ s)

section Pieces

variable {u r t s rest : Bytes} {n : Nat}

theorem CodeUnit.hex4_append (h : CodeUnit u n) (r : Bytes) : hex4 (u ++ r) = .ok (n, r) := by
  cases h with
  | digits ha hb hc hd =>
      simp only [List.cons_append, List.nil_append, hex4, ha, hb, hc, hd]

theorem lt_of_hexValue? {b : UInt8} (h : hexValue? b = some n) : b < 0x80 := by
  rw [UInt8.lt_iff_toNat_lt]
  unfold hexValue? Bytes.isDigit at h
  simp only [Bool.and_eq_true, decide_eq_true_eq, UInt8.le_iff_toNat_le] at h
  have h57 : (57 : UInt8).toNat = 57 := rfl
  have h102 : (102 : UInt8).toNat = 102 := rfl
  have h70 : (70 : UInt8).toNat = 70 := rfl
  have h128 : (0x80 : UInt8).toNat = 128 := rfl
  split at h
  · omega
  · split at h
    · omega
    · split at h
      · omega
      · cases h

theorem CodeUnit.valid (h : CodeUnit u n) : Utf8.Valid u := by
  cases h with
  | digits ha hb hc hd =>
      apply Utf8.valid_ascii
      simp only [List.forall_mem_cons]
      exact ⟨lt_of_hexValue? ha, lt_of_hexValue? hb, lt_of_hexValue? hc, lt_of_hexValue? hd, nofun⟩

theorem escaped?_cases {e b : UInt8} (h : escaped? e = some b) :
    e < 0x80 ∧ b < 0x80 ∧ e ≠ 117 := by
  unfold escaped? at h
  repeat' split at h
  · rename_i he
    cases h
    rcases he with rfl | rfl | rfl <;> decide
  all_goals cases h
  all_goals subst_vars
  all_goals decide

/-- A byte that stands for itself inside a string. -/
def Plain (b : UInt8) : Prop :=
  b ≠ 34 ∧ b ≠ 92 ∧ ¬b < 32

theorem plain_of_le {b : UInt8} (h : 0x80 ≤ b.toNat) : Plain b := by
  refine ⟨?_, ?_, ?_⟩
  · rintro rfl
    exact absurd h (by decide)
  · rintro rfl
    exact absurd h (by decide)
  · rw [UInt8.lt_iff_toNat_lt]
    have h32 : (32 : UInt8).toNat = 32 := rfl
    omega

/-- The bytes of a character that stands for itself stand for themselves. -/
theorem plain_of_spelling {p : Bytes} (h : Utf8.Spelling p n) (hn : Unescaped n) :
    ∀ b ∈ p, Plain b := by
  cases h with
  | @one a ha =>
      intro b hb
      rw [List.mem_singleton.1 hb]
      obtain ⟨hlow, hquote, hslash⟩ := hn
      refine ⟨fun h => hquote (h ▸ rfl), fun h => hslash (h ▸ rfl), ?_⟩
      rw [UInt8.lt_iff_toNat_lt]
      exact Nat.not_lt.2 hlow
  | @two a b ha ha' hb =>
      simp only [List.forall_mem_cons]
      exact ⟨plain_of_le (by omega), plain_of_le hb.1, nofun⟩
  | @three a b c ha ha' hb hc hlow hhigh =>
      simp only [List.forall_mem_cons]
      exact ⟨plain_of_le (by omega), plain_of_le hb.1, plain_of_le hc.1, nofun⟩
  | @four a b c d ha ha' hb hc hd hlow hhigh =>
      simp only [List.forall_mem_cons]
      exact ⟨plain_of_le (by omega), plain_of_le hb.1, plain_of_le hc.1, plain_of_le hd.1, nofun⟩

/-- What spells a text may stand inside a string. -/
theorem Spells.inside (h : Spells t s) : Inside t := by
  induction h with
  | nil => exact .nil
  | char hp hn _ ih => exact .char hp hn ih
  | letter he _ ih => exact .letter he ih
  | unit hu _ _ _ ih => exact .unit hu ih
  | pair hu _ hv _ _ ih => exact .unit hu (.unit hv ih)

theorem Inside.valid (h : Inside t) : Utf8.Valid t := by
  induction h with
  | nil => exact Utf8.valid_nil
  | char hp _ _ ih => exact Utf8.valid_append hp.valid ih
  | letter he _ ih => exact Utf8.valid_cons (by decide) (Utf8.valid_cons (escaped?_cases he).1 ih)
  | unit hu _ ih =>
      exact Utf8.valid_cons (by decide) (Utf8.valid_cons (by decide) (Utf8.valid_append hu.valid ih))

theorem Spells.valid_text (h : Spells t s) : Utf8.Valid s := by
  induction h with
  | nil => exact Utf8.valid_nil
  | char hp _ _ ih => exact Utf8.valid_append hp.valid ih
  | letter he _ ih => exact Utf8.valid_cons (escaped?_cases he).2.1 ih
  | unit _ _ _ _ ih => exact Utf8.valid_append (Utf8.spelling_encodeChar _).valid ih
  | pair _ _ _ _ _ ih => exact Utf8.valid_append (Utf8.spelling_encodeChar _).valid ih

end Pieces

section Reading

variable {u r t s rest acc p : Bytes} {n : Nat}

theorem codePoint_of_unit (h : CodeUnit u n) (hlow : isLow n = false) (hhigh : isHigh n = false)
    (r : Bytes) : codePoint (u ++ r) = .ok (Char.ofNat n, r) := by
  unfold codePoint
  simp only [h.hex4_append r, hlow, hhigh, Bool.false_eq_true, if_false]

theorem codePoint_of_pair {v : Bytes} {m : Nat} (h : CodeUnit u n) (hhigh : isHigh n = true)
    (h' : CodeUnit v m) (hlow : isLow m = true) (r : Bytes) :
    codePoint (u ++ 92 :: 117 :: (v ++ r)) =
      .ok (Char.ofNat (0x10000 + (n - 0xD800) * 1024 + (m - 0xDC00)), r) := by
  have hfirst : isLow n = false := by
    unfold isHigh at hhigh
    unfold isLow
    simp only [Bool.and_eq_true, decide_eq_true_eq] at hhigh
    simp only [Bool.and_eq_false_iff, decide_eq_false_iff_not]
    omega
  unfold codePoint
  simp only [h.hex4_append, hfirst, hhigh, Bool.false_eq_true, if_false, if_true, expect,
    h'.hex4_append, hlow]

theorem stringFrom_quote (acc r : Bytes) : stringFrom acc (34 :: r) = .ok (acc.reverse, r) := by
  rw [stringFrom.eq_def]
  exact if_pos rfl

theorem stringFrom_plain {b : UInt8} (h : Plain b) (acc r : Bytes) :
    stringFrom acc (b :: r) = stringFrom (b :: acc) r := by
  rw [stringFrom.eq_def]
  simp only [if_neg h.1, if_neg h.2.1, if_neg h.2.2]

theorem stringFrom_letter {e b : UInt8} (h : escaped? e = some b) (acc r : Bytes) :
    stringFrom acc (92 :: e :: r) = stringFrom (b :: acc) r := by
  rw [stringFrom, if_neg (by decide), if_pos rfl]
  simp only [if_neg (escaped?_cases h).2.2, h]

theorem stringFrom_codePoint {c : Char} (h : codePoint r = .ok (c, rest)) (acc : Bytes) :
    stringFrom acc (92 :: 117 :: r) =
      stringFrom ((String.utf8EncodeChar c).reverse ++ acc) rest := by
  rw [stringFrom, if_neg (by decide), if_pos rfl]
  simp only [if_true]
  split
  · rename_i f hf
    rw [h] at hf
    cases hf
  · rename_i c' t ht
    rw [h] at ht
    cases ht
    rfl

theorem stringFrom_plains (h : ∀ b ∈ p, Plain b) (acc r : Bytes) :
    stringFrom acc (p ++ r) = stringFrom (p.reverse ++ acc) r := by
  induction p generalizing acc with
  | nil => rfl
  | cons b p ih =>
      rw [List.forall_mem_cons] at h
      rw [List.cons_append, stringFrom_plain h.1, ih h.2, List.reverse_cons, List.append_assoc]
      rfl

/-- What spells a text is read as that text. -/
theorem Spells.stringFrom_eq (h : Spells t s) (acc rest : Bytes) :
    stringFrom acc (t ++ 34 :: rest) = .ok (acc.reverse ++ s, rest) := by
  induction h generalizing acc with
  | nil => rw [List.nil_append, stringFrom_quote, List.append_nil]
  | char hp hn _ ih =>
      rw [List.append_assoc, stringFrom_plains (plain_of_spelling hp hn), ih, List.reverse_append,
        List.reverse_reverse, List.append_assoc]
  | letter he _ ih =>
      rw [List.cons_append, List.cons_append, stringFrom_letter he, ih, List.reverse_cons,
        List.append_assoc]
      rfl
  | unit hu hlow hhigh _ ih =>
      rw [List.cons_append, List.cons_append, List.append_assoc,
        stringFrom_codePoint (codePoint_of_unit hu hlow hhigh _), ih, List.reverse_append,
        List.reverse_reverse, List.append_assoc]
  | pair hu hhigh hv hlow _ ih =>
      rw [List.cons_append, List.cons_append, List.append_assoc, List.cons_append,
        List.cons_append, List.append_assoc,
        stringFrom_codePoint (codePoint_of_pair hu hhigh hv hlow _), ih, List.reverse_append,
        List.reverse_reverse, List.append_assoc]

theorem Spells.string_eq (h : Spells t s) (rest : Bytes) :
    string (t ++ 34 :: rest) = .ok (s, rest) := by
  have hvalid : Utf8.isValid s = true := h.valid_text
  rw [string, h.stringFrom_eq]
  simp only [List.reverse_nil, List.nil_append, hvalid, if_true]

theorem skipString_plain {b : UInt8} (h : Plain b) (r : Bytes) :
    skipString (b :: r) = skipString r := by
  rw [skipString.eq_def]
  simp only [if_neg h.1, if_neg h.2.1, if_neg h.2.2]

theorem skipString_plains (h : ∀ b ∈ p, Plain b) (r : Bytes) :
    skipString (p ++ r) = skipString r := by
  induction p with
  | nil => rfl
  | cons b p ih =>
      rw [List.forall_mem_cons] at h
      rw [List.cons_append, skipString_plain h.1, ih h.2]

theorem skipString_letter {e b : UInt8} (h : escaped? e = some b) (r : Bytes) :
    skipString (92 :: e :: r) = skipString r := by
  rw [skipString, if_neg (by decide), if_pos rfl]
  simp only [if_neg (escaped?_cases h).2.2, h]

theorem skipString_hex4 (h : hex4 r = .ok (n, rest)) :
    skipString (92 :: 117 :: r) = skipString rest := by
  rw [skipString, if_neg (by decide), if_pos rfl]
  simp only [if_true]
  split
  · rename_i f hf
    rw [h] at hf
    cases hf
  · rename_i n' t ht
    rw [h] at ht
    cases ht
    rfl

/-- Whatever may stand inside a string is passed over. -/
theorem Inside.skipString_eq (h : Inside t) (rest : Bytes) :
    skipString (t ++ 34 :: rest) = .ok rest := by
  induction h with
  | nil =>
      rw [List.nil_append, skipString.eq_def]
      exact if_pos rfl
  | char hp hn _ ih => rw [List.append_assoc, skipString_plains (plain_of_spelling hp hn), ih]
  | letter he _ ih => rw [List.cons_append, List.cons_append, skipString_letter he, ih]
  | unit hu _ ih =>
      rw [List.cons_append, List.cons_append, List.append_assoc,
        skipString_hex4 (hu.hex4_append _), ih]

end Reading

section Quoting

/-- The digits of a byte below 32. -/
theorem hexByte_eq {b : UInt8} (h : b < 32) : ∃ x y, hexByte b = [x, y] ∧
    hexValue? x = some (b.toNat / 16) ∧ hexValue? y = some (b.toNat % 16) := by
  have hall : ∀ n < 32, (hexByte (UInt8.ofNat n)).map hexValue? =
      [some (n / 16), some (n % 16)] := by
    decide +kernel
  have hb := hall b.toNat (UInt8.lt_iff_toNat_lt.1 h)
  rw [UInt8.ofNat_toNat] at hb
  obtain ⟨x, l, hx, hvalue, hl⟩ := List.map_eq_cons_iff.1 hb
  obtain ⟨y, l', rfl, hvalue', hl'⟩ := List.map_eq_cons_iff.1 hl
  rw [List.map_eq_nil_iff.1 hl'] at hx
  exact ⟨x, y, hx, hvalue, hvalue'⟩

/-- A byte below 32 is written by its number. -/
theorem codeUnit_hexByte {b : UInt8} (h : b < 32) : CodeUnit (48 :: 48 :: hexByte b) b.toNat := by
  obtain ⟨x, y, hxy, hx, hy⟩ := hexByte_eq h
  have hdigits := CodeUnit.digits (a := 48) (b := 48) (w := 0) (x := 0) rfl rfl hx hy
  have hvalue : ((0 * 16 + 0) * 16 + b.toNat / 16) * 16 + b.toNat % 16 = b.toNat := by omega
  rw [hvalue] at hdigits
  rw [hxy]
  exact hdigits

/-- How a character of one byte is written spells it. -/
theorem spells_escape {a : UInt8} (h : a.toNat < 0x80) {t s : Bytes} (hs : Spells t s) :
    Spells (escape a ++ t) (a :: s) := by
  unfold escape
  split
  · rename_i ha
    exact ha ▸ .letter (e := 34) rfl hs
  split
  · rename_i ha
    exact ha ▸ .letter (e := 92) rfl hs
  rename_i hquote hslash
  split
  · rename_i hle
    have hne (c : UInt8) (hc : a ≠ c) : a.toNat ≠ c.toNat := fun h => hc (UInt8.toNat_inj.1 h)
    exact .char (.one h) ⟨UInt8.le_iff_toNat_le.1 hle, hne 34 hquote, hne 92 hslash⟩ hs
  rename_i hlt
  split
  · rename_i ha
    exact ha ▸ .letter (e := 98) rfl hs
  split
  · rename_i ha
    exact ha ▸ .letter (e := 116) rfl hs
  split
  · rename_i ha
    exact ha ▸ .letter (e := 110) rfl hs
  split
  · rename_i ha
    exact ha ▸ .letter (e := 102) rfl hs
  split
  · rename_i ha
    exact ha ▸ .letter (e := 114) rfl hs
  have hlow : isLow a.toNat = false := by
    unfold isLow
    simp only [Bool.and_eq_false_iff, decide_eq_false_iff_not]
    omega
  have hhigh : isHigh a.toNat = false := by
    unfold isHigh
    simp only [Bool.and_eq_false_iff, decide_eq_false_iff_not]
    omega
  have hspells := Spells.unit (codeUnit_hexByte (UInt8.not_le.1 hlt)) hlow hhigh hs
  rw [(Utf8.Spelling.one h).encodeChar] at hspells
  exact hspells

theorem escape_of_le {b : UInt8} (h : 0x80 ≤ b.toNat) : escape b = [b] := by
  obtain ⟨hquote, hslash, hlow⟩ := plain_of_le h
  rw [escape, if_neg hquote, if_neg hslash, if_pos (UInt8.not_lt.1 hlow)]

theorem flatMap_escape_of_le {p : Bytes} (h : ∀ b ∈ p, 0x80 ≤ b.toNat) : p.flatMap escape = p := by
  induction p with
  | nil => rfl
  | cons b p ih =>
      rw [List.forall_mem_cons] at h
      rw [List.flatMap_cons, escape_of_le h.1, ih h.2]
      rfl

/-- How a character is written spells it. -/
theorem spells_escape_spelling {p : Bytes} {n : Nat} (h : Utf8.Spelling p n) {t s : Bytes}
    (hs : Spells t s) : Spells (p.flatMap escape ++ t) (p ++ s) := by
  -- a longer character is written as it is
  have hlong (hle : ∀ b ∈ p, 0x80 ≤ b.toNat) (hn : 0x80 ≤ n) :
      Spells (p.flatMap escape ++ t) (p ++ s) := by
    rw [flatMap_escape_of_le hle]
    exact .char h ⟨by omega, by omega, by omega⟩ hs
  cases h with
  | one ha =>
      rw [List.flatMap_cons, List.flatMap_nil, List.append_nil]
      exact spells_escape ha hs
  | two ha ha' hb =>
      unfold Utf8.Trailing at hb
      apply hlong
      · simp only [List.forall_mem_cons]
        exact ⟨by omega, hb.1, nofun⟩
      · omega
  | three ha ha' hb hc hlow hhigh =>
      unfold Utf8.Trailing at hb hc
      apply hlong
      · simp only [List.forall_mem_cons]
        exact ⟨by omega, hb.1, hc.1, nofun⟩
      · omega
  | four ha ha' hb hc hd hlow hhigh =>
      unfold Utf8.Trailing at hb hc hd
      apply hlong
      · simp only [List.forall_mem_cons]
        exact ⟨by omega, hb.1, hc.1, hd.1, nofun⟩
      · omega

/-- The inside of a quoted text spells it. -/
theorem spells_flatMap_escape {s : Bytes} (h : Utf8.Valid s) : Spells (s.flatMap escape) s := by
  obtain ⟨cs, rfl⟩ := Utf8.exists_encodeChars h
  clear h
  induction cs with
  | nil => exact .nil
  | cons c cs ih =>
      rw [List.flatMap_cons, List.flatMap_append]
      exact spells_escape_spelling (Utf8.spelling_encodeChar c) ih

theorem quote_eq (s : Bytes) : quote s = 34 :: (s.flatMap escape ++ [34]) := by
  rfl

end Quoting

end Json.Scan

end HttpServer
