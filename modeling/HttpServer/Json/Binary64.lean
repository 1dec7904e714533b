import HttpServer.Bytes

/-!
# Binary floating point, exactly

A finite double is a sign and a dyadic number `mantissa * 2 ^ exponent`. All arithmetic here is done
on natural numbers: a quotient is rounded to the nearest double, ties to the even mantissa, and the
decimal text is the shortest that lies in the interval of reals that round to the value.

`scaled` is how a decimal numeral becomes a double: its leading digits, rounded, are multiplied or
divided by a rounded power of ten, in steps of 10^308 where the power is larger. This is not always
the nearest double of the numeral, but it is the same for everyone who counts that way.
-/

namespace HttpServer

/-- A finite double. Normal mantissas have 53 bits; smaller ones stand at the least exponent. -/
structure Binary64 where
  negative : Bool
  mantissa : Nat
  exponent : Int
deriving DecidableEq, Repr

namespace Binary64

/-- The exponent of the smallest doubles. -/
def leastExponent : Int := -1074

/-- The exponent of the largest doubles. -/
def greatestExponent : Int := 971

/-- A power of two. -/
def twoTo (n : Nat) : Nat := Nat.pow 2 n

/-- A power of ten. -/
def tenTo (n : Nat) : Nat := Nat.pow 10 n

/-- The first mantissa that needs 53 bits. -/
def hiddenBit : Nat := twoTo 52

/-- Zero. -/
def zero : Binary64 := ⟨false, 0, leastExponent⟩

/-- `num / den` to the nearest number, a tie to the even one. -/
def roundDiv (num den : Nat) : Nat :=
  let q := num / den
  let r := num % den
  if 2 * r < den then q
  else if den < 2 * r then q + 1
  else if q % 2 = 0 then q else q + 1

/-- `num / den` divided by `2 ^ e`, as a quotient of natural numbers. -/
def scaleDown (num den : Nat) (e : Int) : Nat × Nat :=
  if 0 ≤ e then (num, den * twoTo e.toNat) else (num * twoTo (-e).toNat, den)

/-- The greatest `k` with `2 ^ k ≤ num / den`, for positive `num` and `den`. -/
def log2Ratio (num den : Nat) : Int :=
  let k : Int := num.log2 - den.log2
  let scaled := scaleDown num den k
  if scaled.1 < scaled.2 then k - 1 else k

/-- The double nearest to `num / den`; `none` above the largest one. -/
def round? (num den : Nat) : Option Binary64 :=
  if num = 0 then some zero
  else
    let e := max leastExponent (log2Ratio num den - 52)
    let scaled := scaleDown num den e
    let m := roundDiv scaled.1 scaled.2
    let rounded : Binary64 :=
      if m = 2 * hiddenBit then ⟨false, hiddenBit, e + 1⟩ else ⟨false, m, e⟩
    if greatestExponent < rounded.exponent then none else some rounded

/-- The magnitude of a double as a quotient. -/
def ratio (x : Binary64) : Nat × Nat :=
  if 0 ≤ x.exponent then (x.mantissa * twoTo x.exponent.toNat, 1)
  else (x.mantissa, twoTo (-x.exponent).toNat)

/-- The double nearest to the product of two magnitudes. -/
def times? (x y : Binary64) : Option Binary64 :=
  round? (x.ratio.1 * y.ratio.1) (x.ratio.2 * y.ratio.2)

/-- The double nearest to the quotient of two magnitudes. -/
def over? (x y : Binary64) : Option Binary64 :=
  round? (x.ratio.1 * y.ratio.2) (x.ratio.2 * y.ratio.1)

/-- The double nearest to a natural number. -/
def ofNat? (n : Nat) : Option Binary64 :=
  round? n 1

/-- The greatest power of ten that is a double. -/
def greatestPower : Nat := 308

/-- Divides by `10 ^ n`, at most `10 ^ 308` at a time. -/
def shrink? (x : Binary64) (n : Nat) : Option Binary64 :=
  if x.mantissa = 0 then some x
  else if n ≤ greatestPower then (ofNat? (tenTo n)).bind x.over?
  else do
    let p ← ofNat? (tenTo greatestPower)
    let y ← x.over? p
    y.shrink? (n - greatestPower)
termination_by n
decreasing_by
  simp only [greatestPower] at *
  omega

/-- Multiplies by `10 ^ n`; `none` when the result is too large. -/
def enlarge? (x : Binary64) (n : Nat) : Option Binary64 :=
  if x.mantissa = 0 then some x
  else if n ≤ greatestPower then (ofNat? (tenTo n)).bind x.times?
  else none

/-- The double for `digits * 10 ^ power`; `none` when it is too large. -/
def scaled? (negative : Bool) (digits : Nat) (power : Int) : Option Binary64 := do
  let x ← ofNat? digits
  let y ← if 0 ≤ power then x.enlarge? power.toNat else x.shrink? (-power).toNat
  pure { y with negative := negative }

/-- A decimal numeral `digits * 10 ^ power`. -/
structure Numeral where
  digits : Nat
  power : Int
deriving DecidableEq, Repr

/-- The ends of the interval of reals that round to a double, and the double, all over one
denominator and four times their size. -/
structure Interval where
  low : Nat
  value : Nat
  high : Nat
  den : Nat
  closed : Bool

/-- The interval of reals that round to `x`. Its lower half is short where the mantissa is the first
of its size, and its ends belong to it when the mantissa is even. -/
def interval (x : Binary64) : Interval :=
  let unit := if 0 ≤ x.exponent then twoTo x.exponent.toNat else 1
  let den := if 0 ≤ x.exponent then 1 else twoTo (-x.exponent).toNat
  let below := if x.mantissa = hiddenBit ∧ leastExponent < x.exponent then 1 else 2
  ⟨(4 * x.mantissa - below) * unit, 4 * x.mantissa * unit, (4 * x.mantissa + 2) * unit, 4 * den,
    x.mantissa % 2 = 0⟩

/-- Whether `num / den` lies in the interval. -/
def Interval.contains (i : Interval) (num den : Nat) : Bool :=
  let low := i.low * den
  let high := i.high * den
  let x := num * i.den
  if i.closed then low ≤ x && x ≤ high else low < x && x < high

/-- A bound for the `k` with `10 ^ k ≤ num / den`, at most two above the greatest, by counting
30103 / 100000 for the logarithm of two. -/
def log10Bound (num den : Nat) : Int :=
  (log2Ratio num den + 1) * 30103 / 100000 + 1

/-- The greatest `k` with `10 ^ k ≤ num / den`, for positive `num` and `den`, searched downwards
from `start` in at most `fuel` steps. -/
def log10Ratio (num den : Nat) : Nat → Int → Int
  | 0, start => start
  | fuel + 1, start =>
    let fits := if 0 ≤ start then decide (den * tenTo start.toNat ≤ num)
      else decide (den ≤ num * tenTo (-start).toNat)
    if fits then start else log10Ratio num den fuel (start - 1)

/-- The multiple of `10 ^ power` as a quotient. -/
def gridPoint (digits : Nat) (power : Int) : Nat × Nat :=
  if 0 ≤ power then (digits * tenTo power.toNat, 1) else (digits, tenTo (-power).toNat)

/-- On the grid of multiples of `10 ^ power`, the neighbour of the value that lies in the interval;
of two such neighbours the nearer, and of two equally near ones the even one. -/
def nearest? (i : Interval) (power : Int) : Option Nat :=
  let scale := gridPoint 1 power
  let num := i.value * scale.2
  let den := i.den * scale.1
  let down := num / den
  let up := down + 1
  let inside (d : Nat) := d ≠ 0 && i.contains (d * scale.1) scale.2
  let rest := num % den
  match inside down, inside up with
  | false, false => none
  | true, false => some down
  | false, true => some up
  | true, true =>
    if 2 * rest < den then some down
    else if den < 2 * rest then some up
    else if down % 2 = 0 then some down else some up

/-- The first grid, from the coarsest on, that has a point in the interval. -/
def shortestFrom (i : Interval) : Nat → Int → Option Numeral
  | 0, _ => none
  | fuel + 1, power =>
    match nearest? i power with
    | some d => some ⟨d, power⟩
    | none => shortestFrom i fuel (power - 1)

/-- Drops the zeros at the end of the digits. -/
def Numeral.trim : Nat → Numeral → Numeral
  | 0, n => n
  | fuel + 1, n =>
    if n.digits ≠ 0 ∧ n.digits % 10 = 0 then Numeral.trim fuel ⟨n.digits / 10, n.power + 1⟩ else n

/-- The shortest numeral that rounds to the magnitude of `x`. -/
def shortest (x : Binary64) : Numeral :=
  if x.mantissa = 0 then ⟨0, 0⟩
  else
    let i := x.interval
    let top := log10Ratio i.value i.den 3 (log10Bound i.value i.den)
    match shortestFrom i 20 (top + 1) with
    | some n => n.trim 20
    | none => ⟨0, 0⟩

/-- How the decimal text of a double is laid out: the decimal exponents that are written
positionally. -/
structure Layout where
  leastPositional : Int
  greatestPositional : Int

/-- Positional from 10^-5 up to, but not including, 10^16. -/
def layout : Layout := ⟨-5, 15⟩

/-- The digits `ds` with a point behind the first `n` of them, zeros filling up where needed. -/
def pointAfter (ds : Bytes) (n : Int) : Bytes :=
  if n ≤ 0 then
    Bytes.ascii "0." ++ List.replicate (-n).toNat 48 ++ ds
  else
    let whole := ds.take n.toNat ++ List.replicate (n.toNat - ds.length) 48
    let part := ds.drop n.toNat
    whole ++ Bytes.dot :: (if part = [] then Bytes.ascii "0" else part)

/-- The digits `ds` with a point behind the first, unless there is only one. -/
def pointAfterFirst (ds : Bytes) : Bytes :=
  match ds with
  | d :: e :: r => d :: Bytes.dot :: e :: r
  | _ => ds

/-- The text of an exponent, with its sign. -/
def exponentText (e : Int) : Bytes :=
  Bytes.ascii (if 0 ≤ e then "e+" else "e-") ++ Bytes.decimal e.natAbs

/-- The shortest decimal text that reads back as `x`. -/
def render (x : Binary64) : Bytes :=
  let n := x.shortest
  let ds := Bytes.decimal n.digits
  let e := n.power + ds.length - 1
  let body :=
    if x.mantissa = 0 then Bytes.ascii "0.0"
    else if layout.leastPositional ≤ e ∧ e ≤ layout.greatestPositional then pointAfter ds (e + 1)
    else pointAfterFirst ds ++ exponentText e
  if x.negative then Bytes.ascii "-" ++ body else body

end Binary64

end HttpServer
