import HttpServer.Text.Numeral

/-!
# Addresses of four bytes

An IPv4 address has 32 bits. Its text has one to four numbers between dots, in decimal, in octal
behind a zero, or in hexadecimal behind `0x`. All but the last number stand for one byte each, and
the last one for all bytes that are left. The plain form, which is the one that is written, has four
decimal numbers without needless zeros.
-/

namespace HttpServer

/-- An IPv4 address. -/
structure Ipv4 where
  bits : UInt32
deriving DecidableEq, Repr

namespace Ipv4

/-- The address of four bytes. -/
def ofBytes (a b c d : UInt8) : Ipv4 :=
  ⟨a.toUInt32 <<< 24 ||| b.toUInt32 <<< 16 ||| c.toUInt32 <<< 8 ||| d.toUInt32⟩

/-- The address of two halves. -/
def ofHalves (high low : UInt16) : Ipv4 :=
  ⟨UInt32.ofNat (high.toNat * 0x10000 + low.toNat)⟩

/-- The first two bytes. -/
def highHalf (a : Ipv4) : UInt16 := .ofNat (a.bits.toNat / 0x10000)

/-- The last two bytes. -/
def lowHalf (a : Ipv4) : UInt16 := .ofNat (a.bits.toNat % 0x10000)

/-- The address of the host itself. -/
def loopback : Ipv4 := ofBytes 127 0 0 1

/-- The byte of an address that is `k` bytes from the end. -/
def byte (a : Ipv4) (k : Nat) : Nat :=
  a.bits.toNat / Nat.pow 256 k % 256

/-- Four numbers with dots between. -/
def toText (a : Ipv4) : String :=
  ".".intercalate ([3, 2, 1, 0].map fun k => toString (a.byte k))

/-- The first number that does not fit in an address. -/
def size : Nat := 0x100000000

/-- A number as it stands between dots. -/
def part? : List Char → Option Nat
  | '0' :: 'x' :: ds => Numeral.below? size 16 ds
  | '0' :: 'X' :: ds => Numeral.below? size 16 ds
  | '0' :: ds => Numeral.below? size 8 ('0' :: ds)
  | ds => Numeral.below? size 10 ds

/-- The address of some numbers, of which the last one stands for `left` bytes. -/
def combine? (left : Nat) (high : Nat) : List Nat → Option Nat
  | [] => none
  | [n] => if n < Nat.pow 256 left then some (high * Nat.pow 256 left + n) else none
  | n :: rest =>
    match left with
    | left + 2 => if n < 256 then combine? (left + 1) (high * 256 + n) rest else none
    | _ => none

/-- The address that a text stands for. -/
def ofText? (text : List Char) : Option Ipv4 :=
  let parts := (text.splitOn '.').mapM part?
  (parts.bind (combine? 4 0)).map fun n => ⟨UInt32.ofNat n⟩

/-- A number in the plain form. -/
def plainPart? : List Char → Option Nat
  | '0' :: _ :: _ => none
  | ds => Numeral.below? 256 10 ds

/-- The address that a text in the plain form stands for. -/
def ofPlain? (text : List Char) : Option Ipv4 :=
  match (text.splitOn '.').mapM plainPart? with
  | some [a, b, c, d] => some (ofBytes (.ofNat a) (.ofNat b) (.ofNat c) (.ofNat d))
  | _ => none

end Ipv4

end HttpServer
