/-
# ExportDiff.Decimal.Layout — how a decimal number is written

A decimal with digits `d₁ d₂ … dₙ` and first-digit exponent `e` is written positionally where `e`
lies in a range that the format fixes, always with a point and at least one digit on both sides of
it, and otherwise as `d₁.d₂…dₙ` followed by the exponent with its sign. The range is the format's
only choice, a `Layout`.
-/

import ExportDiff.Decimal.Shortest

namespace ExportDiff

/-- The first-digit exponents that are written positionally. -/
structure Decimal.Layout where
  least : Int
  greatest : Int
  deriving DecidableEq, Repr

namespace Decimal

/-- Digits with a point and nothing else: `e` is the exponent of the first digit. -/
def positional (digits : List Char) (e : Int) : List Char :=
  if e < 0 then
    '0' :: '.' :: (List.replicate (-e - 1).toNat '0' ++ digits)
  else
    let whole := digits.take (e.toNat + 1)
    let fraction := digits.drop (e.toNat + 1)
    whole ++ List.replicate (e.toNat + 1 - whole.length) '0' ++
      '.' :: (if fraction = [] then ['0'] else fraction)

/-- One digit before the point, and the exponent after `e` with an explicit sign. -/
def scientific (digits : List Char) (e : Int) : List Char :=
  let fraction := digits.drop 1
  digits.take 1 ++ (if fraction = [] then [] else '.' :: fraction) ++
    'e' :: (if e < 0 then '-' else '+') :: Nat.toDigits 10 e.natAbs

/-- The text of a decimal number. -/
def text (layout : Layout) (x : Decimal) : List Char :=
  let digits := Nat.toDigits 10 x.digits
  let e := x.exponent + digits.length - 1
  if layout.least ≤ e ∧ e ≤ layout.greatest then positional digits e else scientific digits e

example : text ⟨-5, 15⟩ ⟨15, -1⟩ = ['1', '.', '5'] := by decide
example : text ⟨-5, 15⟩ ⟨1, 2⟩ = ['1', '0', '0', '.', '0'] := by decide
example : text ⟨-5, 15⟩ ⟨1, -5⟩ = ['0', '.', '0', '0', '0', '0', '1'] := by decide
example : text ⟨-5, 15⟩ ⟨15, -8⟩ = ['1', '.', '5', 'e', '-', '7'] := by decide
example : text ⟨-5, 15⟩ ⟨1, 16⟩ = ['1', 'e', '+', '1', '6'] := by decide

end Decimal

end ExportDiff
