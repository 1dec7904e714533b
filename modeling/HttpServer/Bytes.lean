/-!
# Byte strings

What travels over a connection, names a file or fills a page is a list of bytes. Texts inside it are
UTF-8, and all delimiters of the protocol are ASCII, so lines, tokens and header fields are cut on
bytes; a piece is read as text only where a rule speaks of characters.

`lineEnd?` finds the first line break and `breakOn` the first occurrence of a separator. Both come
with the equation that puts the pieces together again.
-/

namespace HttpServer

/-- A string of bytes, in the order in which they travel. -/
abbrev Bytes := List UInt8

namespace Bytes

/-- The bytes of an ASCII text. -/
def ascii (s : String) : Bytes :=
  s.toList.map fun c => UInt8.ofNat c.toNat

/-- Carriage return. -/
def cr : UInt8 := 13

/-- Line feed. -/
def lf : UInt8 := 10

/-- The space that separates the tokens of a start line. -/
def space : UInt8 := 32

/-- The colon after a header name. -/
def colon : UInt8 := 58

/-- The slash between the components of a path. -/
def slash : UInt8 := 47

/-- The dot in front of an extension. -/
def dot : UInt8 := 46

/-- The question mark in front of a query. -/
def question : UInt8 := 63

/-- The two bytes that end a line. -/
def crlf : Bytes := [cr, lf]

/-- The position of the first line break, counted from `i`. -/
def lineEndFrom (i : Nat) : Bytes → Option Nat
  | [] => none
  | b :: r =>
    if b = cr ∧ r.head? = some lf then some i else lineEndFrom (i + 1) r

/-- The length of the text in front of the first line break. -/
def lineEnd? (bs : Bytes) : Option Nat :=
  lineEndFrom 0 bs

@[simp] theorem lineEndFrom_nil (i : Nat) : lineEndFrom i [] = none := rfl

theorem lineEndFrom_cons (i : Nat) (b : UInt8) (r : Bytes) :
    lineEndFrom i (b :: r) =
      if b = cr ∧ r.head? = some lf then some i else lineEndFrom (i + 1) r := rfl

/-- The starting count is only added. -/
theorem lineEndFrom_eq_map (i : Nat) (bs : Bytes) :
    lineEndFrom i bs = (lineEnd? bs).map (i + ·) := by
  unfold lineEnd?
  induction bs generalizing i with
  | nil => rfl
  | cons b r ih =>
    rw [lineEndFrom_cons, lineEndFrom_cons]
    split
    · rfl
    · rw [ih (i + 1), ih (0 + 1), Option.map_map]
      congr 1
      funext n
      simp only [Function.comp_apply]
      omega

@[simp] theorem lineEnd?_nil : lineEnd? [] = none := rfl

theorem lineEnd?_cons (b : UInt8) (r : Bytes) :
    lineEnd? (b :: r) =
      if b = cr ∧ r.head? = some lf then some 0 else (lineEnd? r).map (· + 1) := by
  unfold lineEnd?
  rw [lineEndFrom_cons, lineEndFrom_eq_map (0 + 1)]
  unfold lineEnd?
  congr 2
  funext n
  omega

/-- The line, its break and what follows make up the whole. -/
theorem eq_of_lineEnd?_eq_some {bs : Bytes} {n : Nat} (h : lineEnd? bs = some n) :
    bs = bs.take n ++ crlf ++ bs.drop (n + 2) := by
  induction bs generalizing n with
  | nil => simp at h
  | cons b r ih =>
    rw [lineEnd?_cons] at h
    split at h
    · rename_i hb
      obtain ⟨hb, hr⟩ := hb
      cases r with
      | nil => simp at hr
      | cons c r =>
        simp only [List.head?_cons, Option.some.injEq] at hr
        simp only [Option.some.injEq] at h
        subst h hb hr
        rfl
    · obtain ⟨m, hm, rfl⟩ := Option.map_eq_some_iff.1 h
      have := ih hm
      simpa using this

theorem add_two_le_of_lineEnd?_eq_some {bs : Bytes} {n : Nat} (h : lineEnd? bs = some n) :
    n + 2 ≤ bs.length := by
  have := congrArg List.length (eq_of_lineEnd?_eq_some h)
  simp only [List.length_append, List.length_take, List.length_drop, crlf, List.length_cons,
    List.length_nil] at this
  omega

theorem lineEnd?_eq_none_iff {bs : Bytes} : lineEnd? bs = none ↔ ¬ crlf <:+: bs := by
  constructor
  · rintro h ⟨a, c, rfl⟩
    induction a with
    | nil => cases h
    | cons b a ih =>
      rw [List.append_assoc, List.cons_append, lineEnd?_cons, ← List.append_assoc] at h
      split at h
      · cases h
      · exact ih (Option.map_eq_none_iff.1 h)
  · intro h
    cases hn : lineEnd? bs with
    | none => rfl
    | some n => exact absurd ⟨_, _, (eq_of_lineEnd?_eq_some hn).symm⟩ h

/-- A line that is complete stays so when more arrives. -/
theorem lineEnd?_append {bs : Bytes} {n : Nat} (h : lineEnd? bs = some n) (cs : Bytes) :
    lineEnd? (bs ++ cs) = some n := by
  induction bs generalizing n with
  | nil => simp at h
  | cons b r ih =>
    rw [lineEnd?_cons] at h
    rw [List.cons_append, lineEnd?_cons]
    split at h
    · rename_i hb
      have hr : (r ++ cs).head? = some lf := by
        rw [List.head?_append, hb.2]
        rfl
      rw [if_pos ⟨hb.1, hr⟩, h]
    · rename_i hb
      obtain ⟨m, hm, rfl⟩ := Option.map_eq_some_iff.1 h
      have hr : ¬ (b = cr ∧ (r ++ cs).head? = some lf) := by
        rintro ⟨hcr, hlf⟩
        cases r with
        | nil => simp at hm
        | cons c r => exact hb ⟨hcr, hlf⟩
      rw [if_neg hr, ih hm]
      rfl

/-- The text in front of the first occurrence of `sep`, and the text behind it. -/
def breakOn (sep : UInt8) (bs : Bytes) : Option (Bytes × Bytes) :=
  if sep ∈ bs then some (bs.takeWhile (· != sep), (bs.dropWhile (· != sep)).tail) else none

theorem breakOn_eq_none_iff {sep : UInt8} {bs : Bytes} :
    breakOn sep bs = none ↔ sep ∉ bs := by
  simp [breakOn]

/-- The two parts and the separator make up the whole, and the first part holds no separator. -/
theorem eq_of_breakOn_eq_some {sep : UInt8} {bs a r : Bytes} (h : breakOn sep bs = some (a, r)) :
    bs = a ++ sep :: r ∧ sep ∉ a := by
  unfold breakOn at h
  split at h
  · rename_i hm
    simp only [Option.some.injEq, Prod.mk.injEq] at h
    obtain ⟨rfl, rfl⟩ := h
    induction bs with
    | nil => simp at hm
    | cons b r ih =>
      by_cases hb : b = sep
      · subst hb
        simp
      · have hbs : (b != sep) = true := by simpa using hb
        have hr : sep ∈ r := by
          rcases List.mem_cons.1 hm with h | h
          · exact absurd h.symm hb
          · exact h
        obtain ⟨h₁, h₂⟩ := ih hr
        simp only [List.takeWhile_cons, List.dropWhile_cons, hbs, if_true, List.cons_append,
          List.mem_cons, not_or, List.cons.injEq, true_and]
        exact ⟨h₁, fun e => hb e.symm, h₂⟩
  · simp at h

/-- A decimal digit. -/
def isDigit (b : UInt8) : Bool :=
  48 ≤ b && b ≤ 57

/-- The value of a decimal digit. -/
def digitValue (b : UInt8) : Nat :=
  b.toNat - 48

/-- The decimal text of a number. -/
def decimal (n : Nat) : Bytes :=
  (Nat.toDigits 10 n).map fun c => UInt8.ofNat c.toNat

/-- The number that a row of decimal digits stands for. -/
def decimalValue (ds : Bytes) : Nat :=
  ds.foldl (fun n d => 10 * n + digitValue d) 0

@[simp] theorem ascii_append (s t : String) : ascii (s ++ t) = ascii s ++ ascii t := by
  simp [ascii]

theorem toNat_ofNat_of_isDigit {c : Char} (h : c.isDigit = true) :
    (UInt8.ofNat c.toNat).toNat = c.toNat ∧ 48 ≤ c.toNat ∧ c.toNat ≤ 57 := by
  simp only [Char.isDigit, Bool.and_eq_true, decide_eq_true_eq] at h
  have hlow : 48 ≤ c.toNat := h.1
  have hhigh : c.toNat ≤ 57 := h.2
  refine ⟨?_, hlow, hhigh⟩
  rw [UInt8.toNat_ofNat']
  omega

theorem isDigit_of_mem_decimal {n : Nat} {b : UInt8} (h : b ∈ decimal n) : isDigit b = true := by
  obtain ⟨c, hc, rfl⟩ := List.mem_map.1 h
  have hdigit := Nat.isDigit_of_mem_toDigits (by decide) (by decide) hc
  obtain ⟨hval, hlow, hhigh⟩ := toNat_ofNat_of_isDigit hdigit
  simp only [isDigit, Bool.and_eq_true, decide_eq_true_eq, UInt8.le_iff_toNat_le, hval]
  exact ⟨hlow, hhigh⟩

theorem decimal_ne_nil (n : Nat) : decimal n ≠ [] := by
  simp [decimal, Nat.toDigits_ne_nil]

/-- The decimal text of a number stands for that number. -/
@[simp] theorem decimalValue_decimal (n : Nat) : decimalValue (decimal n) = n := by
  have hfold : ∀ (cs : List Char) (m : Nat), (∀ c ∈ cs, c.isDigit = true) →
      (cs.map fun c => UInt8.ofNat c.toNat).foldl (fun n d => 10 * n + digitValue d) m =
        Nat.ofDigitChars 10 cs m := by
    intro cs
    induction cs with
    | nil =>
      intro m _
      rfl
    | cons c cs ih =>
      intro m h
      have hc := (toNat_ofNat_of_isDigit (h c (by simp))).1
      rw [List.map_cons, List.foldl_cons, Nat.ofDigitChars_cons,
        ih _ fun d hd => h d (List.mem_cons_of_mem c hd), digitValue, hc]
      rfl
  have hdigits : ∀ c ∈ Nat.toDigits 10 n, c.isDigit = true := fun c hc =>
    Nat.isDigit_of_mem_toDigits (by decide) (by decide) hc
  rw [decimalValue, decimal, hfold _ 0 hdigits, Nat.ofDigitChars_ten_toDigits]

/-- What follows `p` in a text that opens with it. -/
def strip? : Bytes → Bytes → Option Bytes
  | [], bs => some bs
  | _ :: _, [] => none
  | p :: ps, b :: bs => if p = b then strip? ps bs else none

@[simp] theorem strip?_nil (bs : Bytes) : strip? [] bs = some bs := by
  cases bs <;> rfl

theorem strip?_eq_some_iff {p bs r : Bytes} : strip? p bs = some r ↔ bs = p ++ r := by
  induction p generalizing bs with
  | nil => simp
  | cons c p ih =>
    cases bs with
    | nil => simp [strip?]
    | cons b bs =>
      by_cases h : c = b
      · simp [strip?, h, ih]
      · simp [strip?, h, Ne.symm h]

end Bytes

end HttpServer
