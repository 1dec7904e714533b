import HttpServer.Text.Utf8

/-!
# Texts and their bytes

A character is spelt by one to four bytes. `Spelling` lists the forms with their bounds, and both
sides meet in it: what is written for a character spells it, and bytes through which one reads
without breaking off open with a spelt character. So a byte string is valid exactly if it is the
encoding of some text, and reading such a string gives the characters of that text.
-/

namespace HttpServer

namespace Utf8

/-- A byte that continues a character. -/
def Trailing (b : UInt8) : Prop :=
  0x80 ≤ b.toNat ∧ b.toNat ≤ 0xBF

/-- The bytes of a character and its number. The bounds of the second byte rule out longer forms
than are needed, surrogates, and numbers beyond the last character. -/
inductive Spelling : Bytes → Nat → Prop where
  | one {a : UInt8} : a.toNat < 0x80 → Spelling [a] a.toNat
  | two {a b : UInt8} : 0xC2 ≤ a.toNat → a.toNat < 0xE0 → Trailing b →
      Spelling [a, b] (64 * (a.toNat - 0xC0) + (b.toNat - 0x80))
  | three {a b c : UInt8} : 0xE0 ≤ a.toNat → a.toNat < 0xF0 → Trailing b → Trailing c →
      (a.toNat = 0xE0 → 0xA0 ≤ b.toNat) → (a.toNat = 0xED → b.toNat ≤ 0x9F) →
      Spelling [a, b, c] (64 * (64 * (a.toNat - 0xE0) + (b.toNat - 0x80)) + (c.toNat - 0x80))
  | four {a b c d : UInt8} : 0xF0 ≤ a.toNat → a.toNat < 0xF5 → Trailing b → Trailing c →
      Trailing d → (a.toNat = 0xF0 → 0x90 ≤ b.toNat) → (a.toNat = 0xF4 → b.toNat ≤ 0x8F) →
      Spelling [a, b, c, d]
        (64 * (64 * (64 * (a.toNat - 0xF0) + (b.toNat - 0x80)) + (c.toNat - 0x80)) +
          (d.toNat - 0x80))

section Writing

/-- What is spelt is the number of a character. -/
theorem Spelling.isValidChar {bs : Bytes} {n : Nat} (h : Spelling bs n) : n.isValidChar := by
  unfold Nat.isValidChar
  cases h with
  | one ha => omega
  | two ha ha' hb =>
      unfold Trailing at hb
      omega
  | three ha ha' hb hc hlow hhigh =>
      unfold Trailing at hb hc
      omega
  | four ha ha' hb hc hd hlow hhigh =>
      unfold Trailing at hb hc hd
      omega

theorem ofNat_eq {k : Nat} {a : UInt8} (h : k = a.toNat) : UInt8.ofNat k = a := by
  rw [h, UInt8.ofNat_toNat]

theorem val_ofNat {n : Nat} (h : n.isValidChar) : (Char.ofNat n).val.toNat = n := by
  unfold Char.ofNat
  rw [dif_pos h]
  rfl

/-- A spelt character is written as it is spelt. -/
theorem Spelling.encodeChar {bs : Bytes} {n : Nat} (h : Spelling bs n) :
    String.utf8EncodeChar (Char.ofNat n) = bs := by
  unfold String.utf8EncodeChar
  rw [val_ofNat h.isValidChar]
  cases h with
  | @one a ha => rw [if_pos (by omega), UInt8.ofNat_toNat]
  | @two a b ha ha' hb =>
      unfold Trailing at hb
      have h₁ : (64 * (a.toNat - 0xC0) + (b.toNat - 0x80)) / 64 % 32 + 192 = a.toNat := by omega
      have h₂ : (64 * (a.toNat - 0xC0) + (b.toNat - 0x80)) % 64 + 128 = b.toNat := by omega
      rw [if_neg (by omega), if_pos (by omega), ofNat_eq h₁, ofNat_eq h₂]
  | @three a b c ha ha' hb hc hlow hhigh =>
      unfold Trailing at hb hc
      rw [if_neg (by omega), if_neg (by omega), if_pos (by omega)]
      rw [ofNat_eq (a := a) (by omega), ofNat_eq (a := b) (by omega), ofNat_eq (a := c) (by omega)]
  | @four a b c d ha ha' hb hc hd hlow hhigh =>
      unfold Trailing at hb hc hd
      rw [if_neg (by omega), if_neg (by omega), if_neg (by omega)]
      rw [ofNat_eq (a := a) (by omega), ofNat_eq (a := b) (by omega), ofNat_eq (a := c) (by omega),
        ofNat_eq (a := d) (by omega)]

theorem toNat_ofNat_of_lt {k : Nat} (h : k < 256) : (UInt8.ofNat k).toNat = k := by
  rw [UInt8.toNat_ofNat']
  exact Nat.mod_eq_of_lt h

theorem Spelling.of_eq {bs : Bytes} {m n : Nat} (h : Spelling bs m) (hmn : m = n) :
    Spelling bs n :=
  hmn ▸ h

/-- What is written for a character spells it. -/
theorem spelling_encodeChar (c : Char) : Spelling (String.utf8EncodeChar c) c.toNat := by
  have hc : c.toNat.isValidChar := c.valid
  unfold Nat.isValidChar at hc
  unfold String.utf8EncodeChar
  rw [Char.toNat_val]
  generalize c.toNat = n at hc
  -- the bytes of every form, as numbers
  have hone : n < 256 → (UInt8.ofNat n).toNat = n := fun h => toNat_ofNat_of_lt h
  have hlead₂ : (UInt8.ofNat (n / 64 % 32 + 192)).toNat = n / 64 % 32 + 192 :=
    toNat_ofNat_of_lt (by omega)
  have hlead₃ : (UInt8.ofNat (n / 4096 % 16 + 224)).toNat = n / 4096 % 16 + 224 :=
    toNat_ofNat_of_lt (by omega)
  have hlead₄ : (UInt8.ofNat (n / 262144 % 8 + 240)).toNat = n / 262144 % 8 + 240 :=
    toNat_ofNat_of_lt (by omega)
  have hhigh : (UInt8.ofNat (n / 4096 % 64 + 128)).toNat = n / 4096 % 64 + 128 :=
    toNat_ofNat_of_lt (by omega)
  have hmid : (UInt8.ofNat (n / 64 % 64 + 128)).toNat = n / 64 % 64 + 128 :=
    toNat_ofNat_of_lt (by omega)
  have hlow : (UInt8.ofNat (n % 64 + 128)).toNat = n % 64 + 128 := toNat_ofNat_of_lt (by omega)
  simp only
  split
  · exact (Spelling.one (by omega)).of_eq (by omega)
  · split
    · exact (Spelling.two (by omega) (by omega) ⟨by omega, by omega⟩).of_eq (by omega)
    · split
      · exact (Spelling.three (by omega) (by omega) ⟨by omega, by omega⟩ ⟨by omega, by omega⟩
          (by omega) (by omega)).of_eq (by omega)
      · exact (Spelling.four (by omega) (by omega) ⟨by omega, by omega⟩ ⟨by omega, by omega⟩
          ⟨by omega, by omega⟩ (by omega) (by omega)).of_eq (by omega)

end Writing

section Reading

theorem begin_append (read more : List (Option Char)) (b : UInt8) :
    Reader.begin (read ++ more) b =
      ⟨(Reader.begin read b).pending, (Reader.begin read b).read ++ more⟩ := by
  unfold Reader.begin
  split
  · rfl
  · split <;> rfl

theorem step_append (p : Option Pending) (read more : List (Option Char)) (b : UInt8) :
    Reader.step ⟨p, read ++ more⟩ b =
      ⟨(Reader.step ⟨p, read⟩ b).pending, (Reader.step ⟨p, read⟩ b).read ++ more⟩ := by
  cases p with
  | none => exact begin_append read more b
  | some p =>
      simp only [Reader.step]
      split
      · split <;> rfl
      · exact begin_append (none :: read) more b

/-- What was read before does not change how one reads on. -/
theorem foldl_step_append (bs : Bytes) (p : Option Pending) (read more : List (Option Char)) :
    bs.foldl Reader.step ⟨p, read ++ more⟩ =
      ⟨(bs.foldl Reader.step ⟨p, read⟩).pending,
        (bs.foldl Reader.step ⟨p, read⟩).read ++ more⟩ := by
  induction bs generalizing p read with
  | nil => rfl
  | cons b bs ih =>
      rw [List.foldl_cons, step_append, ih]
      rfl

/-- The characters of what follows, behind those that were read. -/
theorem finish_foldl (bs : Bytes) (p : Option Pending) (read : List (Option Char)) :
    (bs.foldl Reader.step ⟨p, read⟩).finish =
      read.reverse ++ (bs.foldl Reader.step ⟨p, []⟩).finish := by
  have h := foldl_step_append bs p [] read
  rw [List.nil_append] at h
  rw [h]
  generalize bs.foldl Reader.step ⟨p, []⟩ = r
  obtain ⟨p, chars⟩ := r
  cases p with
  | none => simp [Reader.finish]
  | some p => simp [Reader.finish]

variable {a b : UInt8} {value missing : Nat} {low high : UInt8}

theorem step_of_lt (h : a.toNat < 0x80) (read : List (Option Char)) :
    Reader.step ⟨none, read⟩ a = ⟨none, some (Char.ofNat a.toNat) :: read⟩ := by
  rw [Reader.step, Reader.begin, if_pos (UInt8.lt_iff_toNat_lt.2 h)]

/-- A lead byte announces the rest of a character. -/
theorem step_of_ofLead? {p : Pending} (h : 0x80 ≤ a.toNat) (hp : Pending.ofLead? a = some p)
    (read : List (Option Char)) : Reader.step ⟨none, read⟩ a = ⟨some p, read⟩ := by
  have hlong : ¬ a < 0x80 := fun hlt => Nat.not_lt.2 h (UInt8.lt_iff_toNat_lt.1 hlt)
  rw [Reader.step, Reader.begin, if_neg hlong, hp]

theorem step_last (hlow : low ≤ b) (hhigh : b ≤ high) (read : List (Option Char)) :
    Reader.step ⟨some ⟨value, 1, low, high⟩, read⟩ b =
      ⟨none, some (Char.ofNat (64 * value + (b.toNat - 0x80))) :: read⟩ := by
  simp only [Reader.step]
  rw [if_pos ⟨hlow, hhigh⟩]
  rfl

theorem step_more (hlow : low ≤ b) (hhigh : b ≤ high) (read : List (Option Char)) :
    Reader.step ⟨some ⟨value, missing + 2, low, high⟩, read⟩ b =
      ⟨some ⟨64 * value + (b.toNat - 0x80), missing + 1, 0x80, 0xBF⟩, read⟩ := by
  simp only [Reader.step]
  rw [if_pos ⟨hlow, hhigh⟩, if_neg (show ¬ missing + 2 ≤ 1 by omega)]
  rfl

theorem ofLead?_of_two (h : 0xC2 ≤ a.toNat) (h' : a.toNat < 0xE0) :
    Pending.ofLead? a = some ⟨a.toNat - 0xC0, 1, 0x80, 0xBF⟩ := by
  simp only [Pending.ofLead?, UInt8.lt_iff_toNat_lt, UInt8.reduceToNat]
  rw [if_neg (by omega), if_pos h']

theorem ofLead?_of_three (h : 0xE0 ≤ a.toNat) (h' : a.toNat < 0xF0) :
    Pending.ofLead? a = some ⟨a.toNat - 0xE0, 2, if a = 0xE0 then 0xA0 else 0x80,
      if a = 0xED then 0x9F else 0xBF⟩ := by
  simp only [Pending.ofLead?, UInt8.lt_iff_toNat_lt, UInt8.reduceToNat]
  rw [if_neg (by omega), if_neg (by omega), if_pos h']

theorem ofLead?_of_four (h : 0xF0 ≤ a.toNat) (h' : a.toNat < 0xF5) :
    Pending.ofLead? a = some ⟨a.toNat - 0xF0, 3, if a = 0xF0 then 0x90 else 0x80,
      if a = 0xF4 then 0x8F else 0xBF⟩ := by
  simp only [Pending.ofLead?, UInt8.lt_iff_toNat_lt, UInt8.reduceToNat]
  rw [if_neg (by omega), if_neg (by omega), if_neg (by omega), if_pos h']

theorem ofLead?_eq_none (h : a.toNat < 0xC2 ∨ 0xF5 ≤ a.toNat) : Pending.ofLead? a = none := by
  simp only [Pending.ofLead?, UInt8.lt_iff_toNat_lt, UInt8.reduceToNat]
  split
  · rfl
  · rw [if_neg (by omega), if_neg (by omega), if_neg (by omega)]

theorem low_le_iff {lead : UInt8} (h : 0x80 ≤ low.toNat) :
    (if a = lead then low else 0x80) ≤ b ↔
      0x80 ≤ b.toNat ∧ (a.toNat = lead.toNat → low.toNat ≤ b.toNat) := by
  rw [UInt8.le_iff_toNat_le]
  by_cases ha : a = lead
  · rw [if_pos ha, ha]
    omega
  · have hne : a.toNat ≠ lead.toNat := fun e => ha (UInt8.toNat_inj.1 e)
    rw [if_neg ha]
    simp only [UInt8.reduceToNat]
    omega

theorem le_high_iff {lead : UInt8} (h : high.toNat ≤ 0xBF) :
    b ≤ (if a = lead then high else 0xBF) ↔
      b.toNat ≤ 0xBF ∧ (a.toNat = lead.toNat → b.toNat ≤ high.toNat) := by
  rw [UInt8.le_iff_toNat_le]
  by_cases ha : a = lead
  · rw [if_pos ha, ha]
    omega
  · have hne : a.toNat ≠ lead.toNat := fun e => ha (UInt8.toNat_inj.1 e)
    rw [if_neg ha]
    simp only [UInt8.reduceToNat]
    omega

theorem trailing_iff : Trailing b ↔ 0x80 ≤ b ∧ b ≤ 0xBF := by
  rw [UInt8.le_iff_toNat_le, UInt8.le_iff_toNat_le]
  exact Iff.rfl

theorem Spelling.foldl_step {bs : Bytes} {n : Nat} (h : Spelling bs n)
    (read : List (Option Char)) :
    bs.foldl Reader.step ⟨none, read⟩ = ⟨none, some (Char.ofNat n) :: read⟩ := by
  cases h with
  | one ha => exact step_of_lt ha read
  | @two a b ha ha' hb =>
      rw [List.foldl_cons, step_of_ofLead? (by omega) (ofLead?_of_two ha ha')]
      exact step_last (trailing_iff.1 hb).1 (trailing_iff.1 hb).2 read
  | @three a b c ha ha' hb hc hlow hhigh =>
      rw [List.foldl_cons, step_of_ofLead? (by omega) (ofLead?_of_three ha ha'), List.foldl_cons,
        step_more ((low_le_iff (by decide)).2 ⟨hb.1, hlow⟩)
          ((le_high_iff (by decide)).2 ⟨hb.2, hhigh⟩)]
      exact step_last (trailing_iff.1 hc).1 (trailing_iff.1 hc).2 read
  | @four a b c d ha ha' hb hc hd hlow hhigh =>
      rw [List.foldl_cons, step_of_ofLead? (by omega) (ofLead?_of_four ha ha'), List.foldl_cons,
        step_more ((low_le_iff (by decide)).2 ⟨hb.1, hlow⟩)
          ((le_high_iff (by decide)).2 ⟨hb.2, hhigh⟩),
        List.foldl_cons, step_more (trailing_iff.1 hc).1 (trailing_iff.1 hc).2]
      exact step_last (trailing_iff.1 hd).1 (trailing_iff.1 hd).2 read

theorem Spelling.decode_append {p : Bytes} {n : Nat} (h : Spelling p n) (bs : Bytes) :
    decode (p ++ bs) = some (Char.ofNat n) :: decode bs := by
  unfold decode
  rw [List.foldl_append, h.foldl_step, finish_foldl]
  rfl

/-- Reading on from an unfinished character, or from none, breaks off nowhere. -/
def Reads (p : Option Pending) (bs : Bytes) : Prop :=
  none ∉ (bs.foldl Reader.step ⟨p, []⟩).finish

theorem valid_iff_reads {bs : Bytes} : Valid bs ↔ Reads none bs := by
  unfold Valid isValid Reads decode
  rw [List.all_eq_true]
  constructor
  · intro h hnone
    cases h none hnone
  · intro h c hc
    cases c with
    | none => exact absurd hc h
    | some c => rfl

theorem reads_cons {p : Option Pending} {bs : Bytes} (h : Reads p (b :: bs)) :
    none ∉ (Reader.step ⟨p, []⟩ b).read ∧ Reads (Reader.step ⟨p, []⟩ b).pending bs := by
  unfold Reads at h ⊢
  rw [List.foldl_cons, finish_foldl, List.mem_append, not_or, List.mem_reverse] at h
  exact h

/-- What an unfinished character waits for comes next. -/
theorem reads_some {p : Pending} {bs : Bytes} (h : Reads (some p) bs) :
    ∃ b r, bs = b :: r ∧ p.low ≤ b ∧ b ≤ p.high := by
  cases bs with
  | nil => exact absurd (List.mem_singleton_self _) h
  | cons b r =>
      refine ⟨b, r, rfl, ?_⟩
      have hread := (reads_cons h).1
      simp only [Reader.step] at hread
      split at hread
      · assumption
      · -- a byte that does not fit leaves a break behind it
        exfalso
        have hbegin := congrArg Reader.read (begin_append [] [none] b)
        rw [List.nil_append] at hbegin
        rw [hbegin] at hread
        exact hread (List.mem_append_right _ (List.mem_singleton_self _))

theorem reads_more {bs : Bytes} (h : Reads (some ⟨value, missing + 2, low, high⟩) bs) :
    ∃ b r, bs = b :: r ∧ (low ≤ b ∧ b ≤ high) ∧
      Reads (some ⟨64 * value + (b.toNat - 0x80), missing + 1, 0x80, 0xBF⟩) r := by
  obtain ⟨b, r, rfl, hlow, hhigh⟩ := reads_some h
  have hrest := (reads_cons h).2
  rw [step_more hlow hhigh] at hrest
  exact ⟨b, r, rfl, ⟨hlow, hhigh⟩, hrest⟩

theorem not_reads_of_ofLead? {bs : Bytes} (h : 0x80 ≤ a.toNat)
    (hnone : Pending.ofLead? a = none) : ¬ Reads none (a :: bs) := by
  intro hreads
  have hlong : ¬ a < 0x80 := fun hlt => Nat.not_lt.2 h (UInt8.lt_iff_toNat_lt.1 hlt)
  have hread := (reads_cons hreads).1
  rw [Reader.step, Reader.begin, if_neg hlong, hnone] at hread
  exact hread (List.mem_singleton_self _)

/-- Bytes through which one reads without breaking off open with a spelt character. -/
theorem exists_spelling {bs : Bytes} (h : Reads none (a :: bs)) :
    ∃ p n r, Spelling p n ∧ a :: bs = p ++ r := by
  rcases Nat.lt_or_ge a.toNat 0x80 with ha | ha
  · exact ⟨[a], a.toNat, bs, .one ha, rfl⟩
  by_cases hnone : a.toNat < 0xC2 ∨ 0xF5 ≤ a.toNat
  · exact absurd h (not_reads_of_ofLead? ha (ofLead?_eq_none hnone))
  rw [not_or, Nat.not_lt, Nat.not_le] at hnone
  obtain ⟨h₂, h₄'⟩ := hnone
  -- from here on the lead byte says how many bytes follow, and within which bounds
  have hlead : ∀ {p}, Pending.ofLead? a = some p → Reads (some p) bs := by
    intro p hp
    have hrest := (reads_cons h).2
    rw [step_of_ofLead? ha hp] at hrest
    exact hrest
  rcases Nat.lt_or_ge a.toNat 0xE0 with h₂' | h₃
  · obtain ⟨b, r, rfl, hb⟩ := reads_some (hlead (ofLead?_of_two h₂ h₂'))
    exact ⟨[a, b], _, r, .two h₂ h₂' (trailing_iff.2 hb), rfl⟩
  rcases Nat.lt_or_ge a.toNat 0xF0 with h₃' | h₄
  · obtain ⟨b, r, rfl, hb, hmore⟩ := reads_more (hlead (ofLead?_of_three h₃ h₃'))
    obtain ⟨c, r, rfl, hc⟩ := reads_some hmore
    rw [low_le_iff (by decide), le_high_iff (by decide)] at hb
    exact ⟨[a, b, c], _, r, .three h₃ h₃' ⟨hb.1.1, hb.2.1⟩ (trailing_iff.2 hc) hb.1.2 hb.2.2,
      rfl⟩
  · obtain ⟨b, r, rfl, hb, hmore⟩ := reads_more (hlead (ofLead?_of_four h₄ h₄'))
    obtain ⟨c, r, rfl, hc, hmore⟩ := reads_more hmore
    obtain ⟨d, r, rfl, hd⟩ := reads_some hmore
    rw [low_le_iff (by decide), le_high_iff (by decide)] at hb
    exact ⟨[a, b, c, d], _, r, .four h₄ h₄' ⟨hb.1.1, hb.2.1⟩ (trailing_iff.2 hc)
      (trailing_iff.2 hd) hb.1.2 hb.2.2, rfl⟩

end Reading

section Texts

theorem encode_ofList (cs : List Char) :
    encode (String.ofList cs) = cs.flatMap String.utf8EncodeChar := by
  rw [encode, String.toList_ofList]

theorem decode_encodeChars (cs : List Char) :
    decode (cs.flatMap String.utf8EncodeChar) = cs.map some := by
  induction cs with
  | nil => rfl
  | cons c cs ih =>
      rw [List.flatMap_cons, (spelling_encodeChar c).decode_append, ih, Char.ofNat_toNat,
        List.map_cons]

/-- What is written is read. -/
theorem lossy_encode (s : String) : lossy (encode s) = s.toList := by
  rw [lossy, encode, decode_encodeChars, List.map_map]
  exact List.map_id _

theorem Spelling.length_pos {p : Bytes} {n : Nat} (h : Spelling p n) : 0 < p.length := by
  cases h <;> exact Nat.zero_lt_succ _

/-- What stands behind a spelt character is valid if the whole is. -/
theorem Spelling.valid_of_append {p r : Bytes} {n : Nat} (h : Spelling p n) (hv : Valid (p ++ r)) :
    Valid r := by
  rw [Valid, isValid, h.decode_append, List.all_cons, Bool.and_eq_true] at hv
  exact hv.2

/-- Valid bytes are a row of spelt characters. -/
theorem exists_encodeChars {bs : Bytes} (h : Valid bs) :
    ∃ cs : List Char, bs = cs.flatMap String.utf8EncodeChar := by
  -- on the length, as a character takes one to four bytes off
  induction hlen : bs.length using Nat.strongRecOn generalizing bs with
  | ind k ih =>
      cases bs with
      | nil => exact ⟨[], rfl⟩
      | cons a bs =>
          obtain ⟨p, n, r, hp, hsplit⟩ := exists_spelling (valid_iff_reads.1 h)
          rw [hsplit] at h hlen ⊢
          have hpos := hp.length_pos
          rw [List.length_append] at hlen
          obtain ⟨cs, rfl⟩ := ih r.length (by omega) (hp.valid_of_append h) rfl
          exact ⟨Char.ofNat n :: cs, by rw [List.flatMap_cons, hp.encodeChar]⟩

/-- A byte string is valid exactly if it is the encoding of some text. -/
theorem valid_iff {bs : Bytes} : Valid bs ↔ ∃ s : String, bs = encode s := by
  constructor
  · intro h
    obtain ⟨cs, rfl⟩ := exists_encodeChars h
    exact ⟨String.ofList cs, (encode_ofList cs).symm⟩
  · rintro ⟨s, rfl⟩
    rw [Valid, isValid, encode, decode_encodeChars, List.all_map]
    exact List.all_eq_true.2 fun _ _ => rfl

theorem valid_append {bs cs : Bytes} (h : Valid bs) (h' : Valid cs) : Valid (bs ++ cs) := by
  obtain ⟨s, rfl⟩ := valid_iff.1 h
  obtain ⟨t, rfl⟩ := valid_iff.1 h'
  refine valid_iff.2 ⟨s ++ t, ?_⟩
  rw [encode, encode, encode, String.toList_append, List.flatMap_append]

theorem valid_nil : Valid [] :=
  valid_ascii nofun

theorem valid_cons {b : UInt8} {bs : Bytes} (hb : b < 0x80) (h : Valid bs) : Valid (b :: bs) := by
  have hbyte : Valid [b] := by
    apply valid_ascii
    intro c hc
    rwa [List.mem_singleton.1 hc]
  exact valid_append hbyte h

theorem Spelling.valid {p : Bytes} {n : Nat} (h : Spelling p n) : Valid p := by
  rw [← List.append_nil p, Valid, isValid, h.decode_append]
  rfl

theorem valid_encode (s : String) : Valid (encode s) :=
  valid_iff.2 ⟨s, rfl⟩

theorem toText_encode (s : String) : toText (encode s) = s := by
  rw [toText, lossy_encode, String.ofList_toList]

/-- What is read without a replacement is a text as it was written. -/
theorem eq_encode_of_lossy {bs : Bytes} (h : replacement ∉ lossy bs) :
    bs = encode (String.ofList (lossy bs)) := by
  have hv : Valid bs := valid_iff_reads.2 fun hnone => h (List.mem_map.2 ⟨none, hnone, rfl⟩)
  obtain ⟨s, rfl⟩ := valid_iff.1 hv
  rw [lossy_encode, String.ofList_toList]

end Texts

end Utf8

end HttpServer
