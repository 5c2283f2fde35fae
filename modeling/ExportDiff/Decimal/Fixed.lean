/-
# ExportDiff.Decimal.Fixed — a magnitude with one decimal place

The tenths of the exact value, rounded to the nearest tenth; a value half-way between two tenths
goes to the even one.
-/

import ExportDiff.Binary64

namespace ExportDiff.Binary64

/-- The number of tenths nearest to the magnitude. -/
def tenths (x : Binary64) : Nat := roundHalfEven (10 * x.fraction.1) x.fraction.2

/-- The magnitude written with one digit after the point. -/
def oneDecimal (x : Binary64) : String :=
  String.ofList (Nat.toDigits 10 (x.tenths / 10) ++ '.' :: Nat.toDigits 10 (x.tenths % 10))

example : (ofRatio 625 100).oneDecimal = "6.2" := by decide
example : (ofRatio 1875 100).oneDecimal = "18.8" := by decide

end ExportDiff.Binary64
