/-
# ExportDiff.Proofs.Similarity.Overlap — what two strings match in at least, and at most

Two strings that begin with the same byte match in at least one byte, however frequent this byte is:
where no seed is found, the run is the empty one at the front of both strings, and growing it takes in
the byte that they begin with. Two strings that differ do not match in all of their bytes.
-/

import Mathlib.Algebra.BigOperators.Group.List.Basic
import Mathlib.Algebra.Order.Group.Nat
import ExportDiff.Proofs.Similarity.Subsequence

namespace ExportDiff.Similarity

/-! ## At least -/

section Positive

variable {as bs : List UInt8} {positions : UInt8 → List Nat} {w : Window} {i : Nat}
  {row : List (Nat × Nat)} {best start : Block}

theorem eq_or_pos_bestOfRow (h : best = start ∨ 0 < best.size) :
    bestOfRow i row best = start ∨ 0 < (bestOfRow i row best).size := by
  induction row generalizing best with
  | nil => exact h
  | cons p row ih =>
    refine ih ?_
    dsimp only
    split
    · next hlt => exact Or.inr (Nat.zero_lt_of_lt hlt)
    · exact h

theorem eq_or_pos_bestOfRows (h : best = start ∨ 0 < best.size) :
    bestOfRows positions i row best as = start ∨
      0 < (bestOfRows positions i row best as).size := by
  induction as generalizing i row best with
  | nil => exact h
  | cons byte bytes ih => exact ih (eq_or_pos_bestOfRow h)

/-- A run without bytes is the one at the front of the window. -/
theorem longestRun_eq_or_pos (as : List UInt8) (positions : UInt8 → List Nat) (w : Window) :
    longestRun as positions w = ⟨w.aStart, w.bStart, 0⟩ ∨ 0 < (longestRun as positions w).size :=
  eq_or_pos_bestOfRows (Or.inl rfl)

theorem size_le_size_grow (as bs : List UInt8) (w : Window) (block : Block) :
    block.size ≤ (block.grow as bs w).size := by
  unfold Block.grow
  dsimp only
  omega

/-- A window whose two sides begin with the same byte has a block. -/
theorem size_longestBlock_pos {byte : UInt8} (ha : (slice as w.aStart w.aStop).head? = some byte)
    (hb : (slice bs w.bStart w.bStop).head? = some byte) :
    0 < (longestBlock as bs positions w).size := by
  unfold longestBlock
  rcases longestRun_eq_or_pos as positions w with hrun | hrun
  · -- what is grown is the empty run at the front
    obtain ⟨xs, hxs⟩ := List.head?_eq_some_iff.mp ha
    obtain ⟨ys, hys⟩ := List.head?_eq_some_iff.mp hb
    rw [hrun]
    unfold Block.grow
    simp only [Nat.add_zero]
    rw [hxs, hys, commonFront, if_pos rfl]
    omega
  · exact Nat.lt_of_lt_of_le hrun (size_le_size_grow as bs w _)

theorem matchedLength_eq_sum_blocks (a b : List UInt8) :
    (Matcher.ofBytes a b).matchedLength
      = (((Matcher.ofBytes a b).blocks ⟨0, a.length, 0, b.length⟩).map (·.size)).sum := by
  rw [matchedLength_eq_sum_found]
  exact ((found_perm_blocks a b).map (·.size)).sum_eq

/-- At least the bytes of the first block that is found are matched. -/
theorem size_longestBlock_le_matchedLength (a b : List UInt8) :
    ((Matcher.ofBytes a b).longestBlock ⟨0, a.length, 0, b.length⟩).size
      ≤ (Matcher.ofBytes a b).matchedLength := by
  rcases Nat.eq_zero_or_pos ((Matcher.ofBytes a b).longestBlock ⟨0, a.length, 0, b.length⟩).size
    with hsize | hsize
  · rw [hsize]
    exact Nat.zero_le _
  · rw [matchedLength_eq_sum_blocks, Matcher.blocks_eq_append _ hsize.ne', List.map_append,
      List.sum_append, List.map_cons, List.sum_cons]
    omega

/-- Two strings that begin with the same byte match in some byte. -/
theorem matchedLength_pos {a b : List UInt8} {byte : UInt8} (ha : a.head? = some byte)
    (hb : b.head? = some byte) : 0 < (Matcher.ofBytes a b).matchedLength := by
  have hsize : 0 < ((Matcher.ofBytes a b).longestBlock ⟨0, a.length, 0, b.length⟩).size := by
    have hslice : ∀ bs : List UInt8, slice bs 0 bs.length = bs := fun bs => by simp [slice]
    exact size_longestBlock_pos ((congrArg _ (hslice a)).trans ha) ((congrArg _ (hslice b)).trans hb)
  exact Nat.lt_of_lt_of_le hsize (size_longestBlock_le_matchedLength a b)

end Positive

/-! ## At most -/

/-- Strings that differ leave a byte of one of them unmatched. -/
theorem two_mul_matchedLength_lt {a b : List UInt8} (h : a ≠ b) :
    2 * (Matcher.ofBytes a b).matchedLength < a.length + b.length := by
  obtain ⟨common, ha, hb, hlength⟩ := exists_common_sublist a b
  have hale := ha.length_le
  have hble := hb.length_le
  by_contra hge
  -- a common subsequence of full length is both strings
  have hcommonA : common = a := ha.eq_of_length (by omega)
  have hcommonB : common = b := hb.eq_of_length (by omega)
  exact h (hcommonA.symm.trans hcommonB)

end ExportDiff.Similarity
