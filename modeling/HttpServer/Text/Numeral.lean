/-!
# Numbers in texts

The numbers that stand in addresses and header fields are rows of digits in a base of their own each.
Only the digits of ASCII count, and a digit that its base does not have makes the whole no number.

Whoever reads a number knows a bound for it. Reading ends where the bound is reached, so a number
stays small however many digits it has, and `below?_eq_filter` says that nothing is lost by that.
-/

namespace HttpServer

namespace Numeral

/-- The value of a character as a digit. -/
def digit? (base : Nat) (c : Char) : Option Nat :=
  let n := c.toNat
  let v := if 48 ≤ n ∧ n ≤ 57 then n - 48
    else if 97 ≤ n ∧ n ≤ 102 then n - 87
    else if 65 ≤ n ∧ n ≤ 70 then n - 55
    else base
  if v < base then some v else none

/-- The number that the digits of `n` with the digits `ds` behind them stand for. -/
def ofDigits? (base n : Nat) : List Char → Option Nat
  | [] => some n
  | c :: ds => (digit? base c).bind fun v => ofDigits? base (base * n + v) ds

/-- The number that the digits of `n` with the digits `ds` behind them stand for, if it stays below
`bound`. -/
def belowFrom? (bound base n : Nat) (ds : List Char) : Option Nat :=
  if bound ≤ n then none
  else
    match ds with
    | [] => some n
    | c :: ds => (digit? base c).bind fun v => belowFrom? bound base (base * n + v) ds

/-- The number that some digits stand for, if there is at least one and the number stays below
`bound`. -/
def below? (bound base : Nat) (ds : List Char) : Option Nat :=
  if ds = [] then none else belowFrom? bound base 0 ds

theorem digit?_lt {base v : Nat} {c : Char} (h : digit? base c = some v) : v < base := by
  simp only [digit?, Option.ite_none_right_eq_some] at h
  exact Option.some.inj h.2 ▸ h.1

/-- Digits only make a number larger. -/
theorem le_of_ofDigits? {base n m : Nat} {ds : List Char} (h : ofDigits? base n ds = some m) :
    n ≤ m := by
  induction ds generalizing n with
  | nil => exact Nat.le_of_eq (Option.some.inj h)
  | cons c ds ih =>
    obtain ⟨v, hv, hm⟩ := Option.bind_eq_some_iff.1 h
    have hpos : 1 ≤ base := by have := digit?_lt hv; omega
    have : 1 * n ≤ base * n := Nat.mul_le_mul_right n hpos
    have := ih hm
    omega

theorem belowFrom?_eq_filter (bound base n : Nat) (ds : List Char) :
    belowFrom? bound base n ds = (ofDigits? base n ds).filter (· < bound) := by
  induction ds generalizing n with
  | nil =>
    unfold belowFrom? ofDigits?
    by_cases h : n < bound <;> simp [Option.filter, h]
  | cons c ds ih =>
    unfold belowFrom?
    split
    · rename_i h
      refine (Option.filter_eq_none_iff.2 fun m hm => ?_).symm
      have := le_of_ofDigits? hm
      simp only [decide_eq_true_eq]
      omega
    · rw [ofDigits?]
      cases hc : digit? base c with
      | none => simp only [hc, Option.bind_none, Option.filter_none]
      | some v => simp only [hc, Option.bind_some, ih]

/-- Reading with a bound is reading first and looking at the bound afterwards. -/
theorem below?_eq_filter (bound base : Nat) {ds : List Char} (h : ds ≠ []) :
    below? bound base ds = (ofDigits? base 0 ds).filter (· < bound) := by
  rw [below?, if_neg h, belowFrom?_eq_filter]

end Numeral

end HttpServer
