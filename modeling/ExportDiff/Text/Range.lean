/-
# ExportDiff.Text.Range — sets of characters

A set of characters is given by the ranges of its code points, in increasing order.
-/

namespace ExportDiff.Text

/-- Whether a character lies in one of some ranges of code points, ends included. -/
def liesIn (ranges : List (Nat × Nat)) (c : Char) : Bool :=
  ranges.any fun (first, last) => first ≤ c.toNat && c.toNat ≤ last

end ExportDiff.Text
