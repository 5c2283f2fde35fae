/-
# ExportDiff.Decimal.Shortest — the fewest decimal digits that read back

A double stands for every real number that rounds to it: an interval around its value, whose ends
belong to it exactly when its significand is even. Its shortest decimal is the number of that
interval with the fewest digits, and of those the one nearest to the value, a tie going to the even
digit.

For a power of ten `10 ^ k`, a multiple of it lies in the interval only if one of the two multiples
next to the value does; so trying `k` downwards from the value's own leading digit, and at each `k`
only these two, finds the shortest decimal. All comparisons are between natural numbers.
-/

import ExportDiff.Binary64

namespace ExportDiff

/-- The decimal number `digits * 10 ^ exponent`. -/
structure Decimal where
  digits : Nat
  exponent : Int
  deriving DecidableEq, Repr

namespace Decimal

/-- Moves trailing zeros of the digits into the exponent. -/
def trim (digits : Nat) (exponent : Int) : Decimal :=
  if h : digits ≠ 0 ∧ digits % 10 = 0 then trim (digits / 10) (exponent + 1)
  else ⟨digits, exponent⟩
termination_by digits
decreasing_by exact Nat.div_lt_self (Nat.pos_of_ne_zero h.1) (by decide)

/-- How many decimal digits a natural number is written with. -/
def length (n : Nat) : Nat := (Nat.toDigits 10 n).length

end Decimal

namespace Binary64

/-- `quarters` quarter units of the last place of `x`, as a fraction in units of `10 ^ k`. -/
def scaled (x : Binary64) (quarters : Nat) (k : Int) : Nat × Nat :=
  (quarters * Nat.pow 2 (x.exponent - 2).toNat * Nat.pow 10 (-k).toNat,
    Nat.pow 2 (2 - x.exponent).toNat * Nat.pow 10 k.toNat)

/-- Whether `d * 10 ^ k` rounds to `x`. -/
def covers (x : Binary64) (d : Nat) (k : Int) : Bool :=
  let below := if x.atPowerOfTwo then 1 else 2
  let (low, den) := x.scaled (4 * x.significand - below) k
  let (high, _) := x.scaled (4 * x.significand + 2) k
  if x.significand % 2 = 0 then low ≤ d * den && d * den ≤ high
  else low < d * den && d * den < high

/-- The multiple of `10 ^ k` that is nearest to `x` among those that round to `x`. -/
def onGrid? (x : Binary64) (k : Int) : Option Nat :=
  let (num, den) := x.scaled (4 * x.significand) k
  let d := num / den
  -- The value lies between `d` and `d + 1` units, so no other multiple is nearer.
  match x.covers d k, x.covers (d + 1) k with
  | true, true => some (roundHalfEven num den)
  | true, false => some d
  | false, true => some (d + 1)
  | false, false => none

/-- The decimal exponent of the first digit of a magnitude above zero. The smallest double exceeds
`10 ^ -324`, so after scaling by `10 ^ 324` the integer part has a first digit to count from. -/
def leadingExponent (x : Binary64) : Int :=
  let (num, den) := x.scaled (4 * x.significand) (-324)
  (Decimal.length (num / den) : Int) - 325

/-- The shortest decimal of a magnitude. Seventeen digits always suffice. -/
def shortest (x : Binary64) : Decimal :=
  if x.isZero then ⟨0, 0⟩
  else
    let hit := (List.range 17).findSome? fun (n : Nat) =>
      let k := x.leadingExponent - n
      (x.onGrid? k).map fun d => Decimal.trim d k
    hit.getD ⟨0, 0⟩

end Binary64

end ExportDiff
