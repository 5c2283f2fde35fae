/-
# ExportDiff.Text.Natural — natural numbers given as text

One or more decimal digits, after an optional plus sign, of a number below `2 ^ 64`.
-/

namespace ExportDiff.Text

/-- The number that digits stand for. -/
def digitsValue (digits : List Char) : Nat :=
  digits.foldl (fun n d => n * 10 + (d.toNat - '0'.toNat)) 0

/-- The number that a text stands for. -/
def natural? (s : String) : Option Nat :=
  let digits := match s.toList with
    | '+' :: digits => digits
    | digits => digits
  if digits ≠ [] ∧ digits.all Char.isDigit ∧ digitsValue digits ≤ 18446744073709551615 then
    some (digitsValue digits)
  else none

end ExportDiff.Text
