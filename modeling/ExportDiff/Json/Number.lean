/-
# ExportDiff.Json.Number — the numbers of a JSON text

An integer that fits 64 bits is kept exactly, a negative one as a signed and any other as an unsigned
64-bit integer. Every other number is a double. An integer and a double are never equal, so `1` and
`1.0` differ; two doubles are compared by value, so `0.0` and `-0.0` are equal although their texts
differ.
-/

import ExportDiff.Decimal.Layout

namespace ExportDiff.Json

/-- A number of a JSON text. -/
inductive Number where
  | integer (n : Int) (least : -9223372036854775808 ≤ n) (greatest : n ≤ 18446744073709551615)
  | double (x : Binary64)
  deriving DecidableEq

namespace Number

/-- The exact integer, where it fits 64 bits. -/
def ofInt? (n : Int) : Option Number :=
  if h : -9223372036854775808 ≤ n ∧ n ≤ 18446744073709551615 then some (.integer n h.1 h.2)
  else none

/-- The unsigned integer of a count or a length. Beyond 64 bits it is the nearest double. -/
def ofNat (n : Nat) : Number := (ofInt? n).getD (.double (Binary64.ofRatio n 1))

/-- Numerical equality within one kind of number. -/
def same : Number → Number → Bool
  | .integer m _ _, .integer n _ _ => m == n
  | .double x, .double y => x.sameValue y
  | _, _ => false

/-! ## Text -/

/-- Doubles are written positionally from `0.00001` up to sixteen digits before the point. -/
def layout : Decimal.Layout := ⟨-5, 15⟩

/-- The text of a number. -/
def text : Number → List Char
  | .integer n _ _ => (if n < 0 then ['-'] else []) ++ Nat.toDigits 10 n.natAbs
  | .double x => (if x.negative then ['-'] else []) ++ x.shortest.text layout

example : text (.double ⟨true, 0, by decide⟩) = ['-', '0', '.', '0'] := by decide

end Number

end ExportDiff.Json
