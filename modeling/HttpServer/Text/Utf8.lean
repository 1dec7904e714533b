import HttpServer.Bytes

/-!
# UTF-8

A text is written byte by byte through a small automaton. Between characters it is at rest; after
the lead byte of a longer character it waits for a known number of further bytes, and the lead byte
bounds the first of them, which is what rules out overlong forms, surrogates and values above
U+10FFFF.

`decode` answers every byte string: it gives a character where one is written, and `none` once for
each longest piece that starts like a character and breaks off. A text is `Valid` when no piece
breaks off, and `lossy` puts U+FFFD in place of those that do.
-/

namespace HttpServer

namespace Utf8

/-- A character that has begun: the value so far, the bytes still missing, and the bounds of the
next one. -/
structure Pending where
  value : Nat
  missing : Nat
  low : UInt8
  high : UInt8
deriving DecidableEq, Repr

/-- What a lead byte announces; `none` for a byte that cannot begin a longer character. -/
def Pending.ofLead? (b : UInt8) : Option Pending :=
  if b < 0xC2 then none
  else if b < 0xE0 then some ⟨b.toNat - 0xC0, 1, 0x80, 0xBF⟩
  else if b < 0xF0 then
    some ⟨b.toNat - 0xE0, 2, if b = 0xE0 then 0xA0 else 0x80, if b = 0xED then 0x9F else 0xBF⟩
  else if b < 0xF5 then
    some ⟨b.toNat - 0xF0, 3, if b = 0xF0 then 0x90 else 0x80, if b = 0xF4 then 0x8F else 0xBF⟩
  else none

/-- The reader between two bytes: an unfinished character, and what was read, latest first. -/
structure Reader where
  pending : Option Pending
  read : List (Option Char)
deriving DecidableEq, Repr

/-- A byte where a character begins. -/
def Reader.begin (read : List (Option Char)) (b : UInt8) : Reader :=
  if b < 0x80 then ⟨none, some (Char.ofNat b.toNat) :: read⟩
  else
    match Pending.ofLead? b with
    | some p => ⟨some p, read⟩
    | none => ⟨none, none :: read⟩

/-- One byte. A byte that cannot continue the unfinished character ends it and begins anew. -/
def Reader.step (r : Reader) (b : UInt8) : Reader :=
  match r.pending with
  | none => Reader.begin r.read b
  | some p =>
    if p.low ≤ b ∧ b ≤ p.high then
      let value := 64 * p.value + (b.toNat - 0x80)
      if p.missing ≤ 1 then ⟨none, some (Char.ofNat value) :: r.read⟩
      else ⟨some ⟨value, p.missing - 1, 0x80, 0xBF⟩, r.read⟩
    else Reader.begin (none :: r.read) b

/-- What was read, in order; a character still unfinished counts as broken off. -/
def Reader.finish (r : Reader) : List (Option Char) :=
  match r.pending with
  | none => r.read.reverse
  | some _ => (none :: r.read).reverse

/-- The characters of a byte string, with `none` for each piece that breaks off. -/
def decode (bs : Bytes) : List (Option Char) :=
  (bs.foldl Reader.step ⟨none, []⟩).finish

/-- Whether the bytes are UTF-8 throughout. -/
def isValid (bs : Bytes) : Bool :=
  (decode bs).all Option.isSome

/-- The bytes are UTF-8 throughout. -/
def Valid (bs : Bytes) : Prop :=
  isValid bs = true

instance (bs : Bytes) : Decidable (Valid bs) :=
  inferInstanceAs (Decidable (isValid bs = true))

/-- What stands for a piece that breaks off. -/
def replacement : Char := Char.ofNat 0xFFFD

/-- The characters of a byte string, each broken piece replaced. -/
def lossy (bs : Bytes) : List Char :=
  (decode bs).map fun c => c.getD replacement

/-- The text of a byte string, each broken piece replaced. -/
def toText (bs : Bytes) : String :=
  String.ofList (lossy bs)

/-- The bytes of a text. -/
def encode (s : String) : Bytes :=
  s.toList.flatMap String.utf8EncodeChar

/-- Bytes below 0x80 are characters of their own. -/
theorem foldl_step_ascii (bs : Bytes) (h : ∀ b ∈ bs, b < 0x80) (read : List (Option Char)) :
    bs.foldl Reader.step ⟨none, read⟩ =
      ⟨none, (bs.map fun b => some (Char.ofNat b.toNat)).reverse ++ read⟩ := by
  induction bs generalizing read with
  | nil => rfl
  | cons b r ih =>
    have hb : b < 0x80 := h b (by simp)
    have hs : Reader.step ⟨none, read⟩ b = ⟨none, some (Char.ofNat b.toNat) :: read⟩ := by
      simp [Reader.step, Reader.begin, hb]
    rw [List.foldl_cons, hs, ih (fun c hc => h c (by simp [hc]))]
    simp

theorem decode_ascii {bs : Bytes} (h : ∀ b ∈ bs, b < 0x80) :
    decode bs = bs.map fun b => some (Char.ofNat b.toNat) := by
  simp [decode, foldl_step_ascii bs h, Reader.finish]

theorem valid_ascii {bs : Bytes} (h : ∀ b ∈ bs, b < 0x80) : Valid bs := by
  simp [Valid, isValid, decode_ascii h]

end Utf8

end HttpServer
