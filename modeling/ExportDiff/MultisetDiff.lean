/-
# ExportDiff.MultisetDiff — what two indexes do not have in common

Two collections are compared key by key: of a key that occurs more often on one side than on the
other, the surplus is a difference, once for every surplus occurrence. Both lists of differences are
in key order, so the result does not depend on the order of the records.
-/

import ExportDiff.FrequencyIndex

namespace ExportDiff

/-- The keys that are missing in, and those that are unexpected on, the second side. -/
structure MultisetDiff where
  missing : List String
  unexpected : List String
  deriving DecidableEq, Repr

/-- Whether nothing differs. -/
def MultisetDiff.isIdentical (d : MultisetDiff) : Bool := d.missing.isEmpty && d.unexpected.isEmpty

namespace FrequencyIndex

/-- The keys that occur more often in the first index, each with its surplus, in key order. -/
def surplus (x y : FrequencyIndex) : List (String × Nat) :=
  x.counts.filterMap fun (key, n) =>
    let rest := n - y.count key
    if 0 < rest then some (key, rest) else none

/-- Each key as often as its count says. -/
def expand (counts : List (String × Nat)) : List String :=
  counts.flatMap fun (key, n) => List.replicate n key

/-- The differences between a base and a head. -/
def diff (base head : FrequencyIndex) : MultisetDiff :=
  ⟨expand (surplus base head), expand (surplus head base)⟩

end FrequencyIndex

end ExportDiff
