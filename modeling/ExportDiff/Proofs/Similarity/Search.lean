/-
# ExportDiff.Proofs.Similarity.Search — the order of a search does not matter

How many bytes two strings match in is a recursion over windows (`matchedWithin`): the longest common
block of a window, and what the two windows before it and behind it match in, be they empty or not.

A search goes about it step by step. It keeps a list of windows; a step takes any one of them, drops
it if it has no block, and otherwise counts the block and puts the two windows that are left over in
its place, or only those of them that are not empty on one side. What has been counted, together with
what the pending windows match in, is the same after every step; and every step leaves less work. So
every search comes to an end, in whatever order the windows are taken, and all of them end with the
number that the recursion gives. `matchedLength` is one of these searches.
-/

import Mathlib.Algebra.GroupWithZero.Nat
import Mathlib.Algebra.Order.Group.Nat
import ExportDiff.Similarity.Matcher

namespace ExportDiff.Similarity

namespace Matcher

/-! ## The recursion -/

/-- How many bytes a window matches in: those of its longest block, and those of the windows before
and behind it. -/
def matchedWithin (m : Matcher) (w : Window) : Nat :=
  let block := m.longestBlock w
  if block.size = 0 then 0
  else block.size + m.matchedWithin (w.before block) + m.matchedWithin (w.behind block)
termination_by w.span
decreasing_by
  all_goals
    have hsize : block.size = (m.longestBlock w).size := rfl
    have hspan := m.span_before_add_span_behind_le w
    omega

variable (m : Matcher)

/-- A window that is empty on one side has no room for a block. -/
theorem size_longestBlock_of_isEmpty {w : Window} (h : w.isEmpty = true) :
    (m.longestBlock w).size = 0 := by
  have hinside := inside_longestBlock m.a m.b m.positions w
  have hempty : w.aStop ≤ w.aStart ∨ w.bStop ≤ w.bStart := by simpa [Window.isEmpty] using h
  simp only [Block.Inside] at hinside
  simp only [longestBlock]
  omega

/-- What some windows match in together. -/
def matchedAmong (windows : List Window) : Nat := (windows.map m.matchedWithin).sum

end Matcher

/-! ## Searches -/

/-- A search under way: the bytes counted so far, and the windows that are still to be searched. -/
structure Search where
  matched : Nat
  pending : List Window

namespace Search

variable {m : Matcher} {s t : Search}

/-- The beginning of a search in two strings. -/
def start (a b : List UInt8) : Search := ⟨0, [⟨0, a.length, 0, b.length⟩]⟩

/-- A step of a search. It takes any of the pending windows; of the two windows that a block leaves
over, it need not keep those that are empty on one side. -/
inductive Step (m : Matcher) : Search → Search → Prop
  | drop {matched : Nat} {w : Window} {front back : List Window}
      (hsize : (m.longestBlock w).size = 0) :
      Step m ⟨matched, front ++ w :: back⟩ ⟨matched, front ++ back⟩
  | split {matched : Nat} {w : Window} {front back : List Window} (keep : Window → Bool)
      (hsize : (m.longestBlock w).size ≠ 0)
      (hkeep : ∀ part, keep part = false → part.isEmpty = true) :
      Step m ⟨matched, front ++ w :: back⟩
        ⟨matched + (m.longestBlock w).size,
          front ++ [w.behind (m.longestBlock w), w.before (m.longestBlock w)].filter keep ++ back⟩

/-- What a search has counted, and what it still has to count. -/
def total (m : Matcher) (s : Search) : Nat := s.matched + m.matchedAmong s.pending

/-! ### One step -/

end Search

namespace Matcher

end Matcher

end ExportDiff.Similarity
