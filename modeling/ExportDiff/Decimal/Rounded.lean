/-
# ExportDiff.Decimal.Rounded — from a decimal number to a double

A decimal number is turned into a double by converting its digits, rounded once, and then multiplying
or dividing by a power of ten, rounded again; a power beyond the largest one that is a double is
divided off in steps. So the result may differ from the double nearest to the decimal number in the
last place. A number too large for a double is refused; one too small becomes zero.
-/

import ExportDiff.Decimal.Shortest

namespace ExportDiff.Decimal

/-- The exponent of the largest power of ten that is a double. -/
def greatestPower : Nat := 308

/-- Divides by the greatest power as often as asked for, or until nothing is left. -/
def divideByGreatest : Nat → Binary64 → Option Binary64
  | 0, x => some x
  | times + 1, x =>
    if x.isZero then some x
    else (x.div? (Binary64.powerOfTen greatestPower)).bind (divideByGreatest times)

/-- Divides by `10 ^ k`: by the greatest power first, while the remaining power is beyond it. -/
def divideByPower (x : Binary64) (k : Nat) : Option Binary64 :=
  let times := (k - 1) / greatestPower
  (divideByGreatest times x).bind fun y =>
    y.div? (Binary64.powerOfTen (k - times * greatestPower))

/-- Multiplies by `10 ^ k`. -/
def multiplyByPower (x : Binary64) (k : Nat) : Option Binary64 :=
  if k ≤ greatestPower then x.mul? (Binary64.powerOfTen k)
  else if x.isZero then some x
  else none

/-- The double that a decimal number is read as, or none where it is out of range. -/
def rounded? (x : Decimal) : Option Binary64 :=
  let digits := Binary64.ofRatio x.digits 1
  if 0 ≤ x.exponent then multiplyByPower digits x.exponent.toNat
  else divideByPower digits (-x.exponent).toNat

end ExportDiff.Decimal
