/-
# ExportDiff.Similarity.Matcher — how many bytes two strings match in

Two byte strings are matched by taking their longest common block, then the longest common block of
what lies before it in both, and of what lies behind it in both, and so on. `matchedLength` adds up
the sizes of these blocks. The windows that are still to be searched are kept in a list; which of
them is searched first does not matter to the sum.
-/

import ExportDiff.Similarity.Block
import ExportDiff.Similarity.Seeds

namespace ExportDiff.Similarity

/-- Two strings, and where the seeds of the second one are, by byte value. -/
structure Matcher where
  a : List UInt8
  b : List UInt8
  seeds : Array (List Nat)

namespace Matcher

/-- The matcher of two strings. -/
def ofBytes (a b : List UInt8) : Matcher := ⟨a, b, seedPositions b⟩

/-- Where a byte is a seed of the second string. -/
def positions (m : Matcher) (byte : UInt8) : List Nat := m.seeds.getD byte.toNat []

/-- The longest common block in a window. -/
def longestBlock (m : Matcher) (w : Window) : Block := Similarity.longestBlock m.a m.b m.positions w

theorem span_before_add_span_behind_le (m : Matcher) (w : Window) :
    (w.before (m.longestBlock w)).span + (w.behind (m.longestBlock w)).span +
      2 * (m.longestBlock w).size ≤ w.span := by
  have h := inside_longestBlock m.a m.b m.positions w
  simp only [Block.Inside] at h
  simp only [Window.span, Window.before, Window.behind, longestBlock]
  omega

/-- The two windows that a block leaves over, without those that are empty on one side; the one
behind the block comes first. -/
def leftOver (w : Window) (block : Block) : List Window :=
  [w.behind block, w.before block].filter fun part => !part.isEmpty

/-- What is left of the work in a list of windows. -/
def work : List Window → Nat
  | [] => 0
  | w :: rest => w.span + 1 + work rest

theorem work_append (xs ys : List Window) : work (xs ++ ys) = work xs + work ys := by
  induction xs with
  | nil => simp [work]
  | cons w xs ih => simp [work, ih, Nat.add_assoc]

theorem work_leftOver_le (w : Window) (block : Block) :
    work (leftOver w block) ≤ (w.before block).span + (w.behind block).span + 2 := by
  simp only [leftOver, List.filter_cons, List.filter_nil]
  split <;> split <;> simp [work] <;> omega

/-- The size of all blocks in the windows of a list, added to `matched`. -/
def matchedIn (m : Matcher) (matched : Nat) (windows : List Window) : Nat :=
  match windows with
  | [] => matched
  | w :: rest =>
    let block := m.longestBlock w
    -- A window without a block in it has nothing left to match.
    if block.size = 0 then m.matchedIn matched rest
    else m.matchedIn (matched + block.size) (leftOver w block ++ rest)
termination_by work windows
decreasing_by
  · simp [work]
  · have hsize : block.size = (m.longestBlock w).size := rfl
    have hspan := m.span_before_add_span_behind_le w
    have hwork := work_leftOver_le w (m.longestBlock w)
    rw [work_append, work]
    omega

/-- How many bytes of one string are matched with bytes of the other. -/
def matchedLength (m : Matcher) : Nat := m.matchedIn 0 [⟨0, m.a.length, 0, m.b.length⟩]

end Matcher

end ExportDiff.Similarity
