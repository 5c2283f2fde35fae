/-
# ExportDiff.Similarity.Ratio — how similar two texts are

The similarity of two texts is the share of their bytes that are matched, counted on both sides: the
quotient of two numbers, divided as doubles. Numbers up to `2 ^ 53` are exact as doubles, so a share is
the double nearest to the fraction. It is as doubles that shares are compared, and shown in percent:
different fractions that are rounded to one double are equally similar.
-/

import ExportDiff.Decimal.Fixed
import ExportDiff.Similarity.Matcher
import ExportDiff.Text.Utf8

namespace ExportDiff

/-- A share of a positive whole. -/
structure Ratio where
  part : Nat
  whole : Nat
  whole_pos : 0 < whole

namespace Ratio

/-- Nothing. -/
def zero : Ratio := ⟨0, 1, by decide⟩

/-- The whole. -/
def one : Ratio := ⟨1, 1, by decide⟩

/-- The double nearest to a share. -/
def toBinary64 (r : Ratio) : Binary64 := Binary64.ofRatio r.part r.whole

/-- Whether the double of a share is smaller than that of another one. -/
def less (r s : Ratio) : Bool := r.toBinary64.less s.toBinary64

/-- Shares up to this one are no similarity. -/
def leastUseful : Ratio := zero

/-- Shares from this one on mean that two records are nearly the same. -/
def nearlyIdentical : Ratio := ⟨999, 1000, by decide⟩

/-! ## Output -/

/-- A hundred times the double of a share, rounded to a double again. -/
def percent (r : Ratio) : Binary64 :=
  let x := r.toBinary64.fraction
  Binary64.ofRatio (100 * x.1) x.2

/-- The share in percent, with one decimal place. -/
def percentText (r : Ratio) : String := r.percent.oneDecimal

/-- The 64 bits of the double of a share, as sixteen hexadecimal digits. -/
def bitText (r : Ratio) : String :=
  let digits := Nat.toDigits 16 r.toBinary64.bits
  String.ofList (List.replicate (16 - digits.length) '0' ++ digits)

end Ratio

/-! ## Similarity of texts -/

namespace Similarity

/-- The share of matched bytes; two empty texts are the same. -/
def ratio (s t : String) : Ratio :=
  let a := Text.toBytes s
  let b := Text.toBytes t
  if h : 0 < a.length + b.length then
    ⟨2 * (Matcher.ofBytes a b).matchedLength, a.length + b.length, h⟩
  else Ratio.one

end Similarity

end ExportDiff
