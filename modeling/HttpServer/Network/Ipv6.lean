import HttpServer.Network.Ipv4

/-!
# Addresses of sixteen bytes

An IPv6 address is eight groups of 16 bits. Its text has colons between the groups, each of one to
four hexadecimal digits; two colons together stand once for one or more groups that are zero, and the
last two groups may be written as an IPv4 address in its plain form.

An address is written with its longest run of at least two zero groups left out, the first one where
two are equally long. The addresses whose last two groups stand for an IPv4 address show that one.
-/

namespace HttpServer

/-- An IPv6 address. -/
structure Ipv6 where
  groups : List UInt16
  length_groups : groups.length = 8
deriving DecidableEq, Repr

namespace Ipv6

/-- The address of eight groups. -/
def ofGroups? (groups : List UInt16) : Option Ipv6 :=
  if h : groups.length = 8 then some ⟨groups, h⟩ else none

/-- The address that stands for any address. -/
def unspecified : Ipv6 := ⟨[0, 0, 0, 0, 0, 0, 0, 0], rfl⟩

/-- The IPv4 address that an address stands for. -/
def mapped? (a : Ipv6) : Option Ipv4 :=
  match a.groups with
  | [0, 0, 0, 0, 0, 0xffff, high, low] => some (.ofHalves high low)
  | _ => none

/-- The first group. -/
def first (a : Ipv6) : Nat := (a.groups.headD 0).toNat

/-- Whether an address is that of a group of hosts. -/
def isMulticast (a : Ipv6) : Bool := a.first / 256 == 0xff

/-- Whether an address is known on one link only. -/
def isLinkLocal (a : Ipv6) : Bool := a.first / 64 == 0xfe80 / 64

/-- Whether an address means something only together with an interface of the host. -/
def needsInterface (a : Ipv6) : Bool :=
  a.isLinkLocal || (a.isMulticast && (a.first % 16 == 1 || a.first % 16 == 2))

/-- A group. -/
def group? (ds : List Char) : Option UInt16 :=
  if ds.length ≤ 4 then (Numeral.below? 0x10000 16 ds).map UInt16.ofNat else none

/-- Groups, of which the last two may stand together as an IPv4 address. -/
def lastGroups? : List (List Char) → Option (List UInt16)
  | [] => some []
  | [piece] =>
    ((group? piece).map fun g => [g]).or
      ((Ipv4.ofPlain? piece).map fun v => [v.highHalf, v.lowHalf])
  | piece :: rest => do return (← group? piece) :: (← lastGroups? rest)

/-- What stands before the first two colons together, and what stands behind them. -/
def cutAtGap? : List Char → Option (List Char × List Char)
  | [] => none
  | ':' :: ':' :: rest => some ([], rest)
  | c :: rest => (cutAtGap? rest).map fun (left, right) => (c :: left, right)

/-- The pieces between colons; an empty text has none. -/
def pieces (text : List Char) : List (List Char) :=
  if text = [] then [] else text.splitOn ':'

/-- The groups on both sides of a gap with zeros between, at least one. -/
def fillGap? (left right : List UInt16) : Option Ipv6 :=
  let known := left.length + right.length
  if known < 8 then ofGroups? (left ++ List.replicate (8 - known) 0 ++ right) else none

/-- The address that a text stands for. -/
def ofText? (text : List Char) : Option Ipv6 :=
  match cutAtGap? text with
  | none => (lastGroups? (pieces text)).bind ofGroups?
  | some (left, right) => do
    let before ← (pieces left).mapM group?
    let behind ← lastGroups? (pieces right)
    fillGap? before behind

/-- How many groups are zero from the `k`-th on. -/
def zerosFrom (a : Ipv6) (k : Nat) : Nat :=
  ((a.groups.drop k).takeWhile (· == 0)).length

/-- Where the first of the longest runs of zeros starts. -/
def longestZeros (a : Ipv6) : Nat :=
  (List.range 8).foldl (fun best k => if a.zerosFrom best < a.zerosFrom k then k else best) 0

/-- Groups with colons between. -/
def groupsText (gs : List UInt16) : String :=
  ":".intercalate (gs.map fun g => String.ofList (Nat.toDigits 16 g.toNat))

/-- The text of an address. -/
def toText (a : Ipv6) : String :=
  match a.mapped? with
  | some v => "::ffff:" ++ v.toText
  | none =>
    let start := a.longestZeros
    let zeros := a.zerosFrom start
    if zeros < 2 then groupsText a.groups
    else groupsText (a.groups.take start) ++ "::" ++ groupsText (a.groups.drop (start + zeros))

end Ipv6

end HttpServer
