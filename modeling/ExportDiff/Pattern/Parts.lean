/-
# ExportDiff.Pattern.Parts — how deep the parts of a pattern go

A single character has depth zero. A group, a set and a repetition are one level deeper than what
they hold, and so are several parts side by side.
-/

namespace ExportDiff.Pattern

/-- Parts side by side: how many they are, and how deep the deepest of them is. -/
structure Parts where
  count : Nat
  depth : Nat
  deriving DecidableEq, Repr

/-- No parts. -/
def Parts.none : Parts := ⟨0, 0⟩

/-- One more part. -/
def Parts.add (p : Parts) (depth : Nat) : Parts := ⟨p.count + 1, max p.depth depth⟩

/-- The parts with a last one that has become deeper. -/
def Parts.deepen (p : Parts) (depth : Nat) : Parts := ⟨p.count, max p.depth depth⟩

/-- The depth of the parts taken together. -/
def Parts.together (p : Parts) : Nat := if p.count ≤ 1 then p.depth else p.depth + 1

end ExportDiff.Pattern
