/-
# ExportDiff.Proofs.Similarity.Share — shares as rational numbers, and as doubles

A share stands for a rational number, but two shares are compared as the doubles nearest to these. Two
shares with different parts and wholes may stand for one number; then they have one double. Different
numbers may have one double as well, but the smaller one never has the greater double, and no part of a
whole that 64 bits can count is rounded to nothing.
-/

import ExportDiff.Proofs.Decimal.Order
import ExportDiff.Similarity.Ratio

namespace ExportDiff

namespace Binary64

theorem negative_ofRatio (num den : Nat) : (ofRatio num den).negative = false := by
  unfold ofRatio nearest?
  split
  · rfl
  · dsimp only
    split
    · rfl
    · rfl

/-- Doubles that are not negative are in the order of their values. -/
theorem less_iff {x y : Binary64} (hx : x.negative = false) (hy : y.negative = false) :
    x.less y = true ↔ x.value < y.value := by
  unfold less rank
  rw [hx, hy, value_lt_value_iff, decide_eq_true_iff]
  exact Int.ofNat_lt

theorem eq_of_value_eq {x y : Binary64} (hsign : x.negative = y.negative)
    (hvalue : x.value = y.value) : x = y := by
  have hmagnitude : x.magnitude = y.magnitude := by
    apply Nat.le_antisymm
    · exact Nat.not_lt.mp fun hlt => (value_lt_value hlt).ne' hvalue
    · exact Nat.not_lt.mp fun hlt => (value_lt_value hlt).ne hvalue
  cases x
  cases y
  cases hsign
  cases hmagnitude
  rfl

end Binary64

namespace Ratio

variable {r s : Ratio}

/-- The rational number that a share stands for. -/
def value (r : Ratio) : ℚ := r.part / r.whole

/-- The rational number that its double is. -/
def rounded (r : Ratio) : ℚ := r.toBinary64.value

theorem value_nonneg (r : Ratio) : 0 ≤ r.value := by
  unfold value
  positivity

theorem rounded_leastUseful : leastUseful.rounded = 0 := Binary64.value_ofRatio_zero 1

/-- Shares are compared by their doubles. -/
theorem less_iff (r s : Ratio) : r.less s = true ↔ r.rounded < s.rounded :=
  Binary64.less_iff (Binary64.negative_ofRatio _ _) (Binary64.negative_ofRatio _ _)

/-- Shares of one value have one nearest double. -/
theorem toBinary64_eq_of_value_eq (h : r.value = s.value) : r.toBinary64 = s.toBinary64 := by
  have hr : (r.whole : ℚ) ≠ 0 := Nat.cast_ne_zero.mpr r.whole_pos.ne'
  have hs : (s.whole : ℚ) ≠ 0 := Nat.cast_ne_zero.mpr s.whole_pos.ne'
  have hcross : r.part * s.whole = s.part * r.whole := by
    unfold value at h
    rw [div_eq_div_iff hr hs] at h
    exact_mod_cast h
  unfold toBinary64 Binary64.ofRatio
  rw [Binary64.nearest?_congr false r.whole_pos s.whole_pos hcross]

/-- The greater one of two shares never has the smaller double. -/
theorem rounded_mono (h : r.value ≤ s.value) (hs : s.part ≤ s.whole) : r.rounded ≤ s.rounded :=
  Binary64.ofRatio_mono r.whole_pos s.whole_pos h hs

/-- Some of a whole that 64 bits can count is not rounded to nothing. -/
theorem rounded_pos (hpart : 0 < r.part) (hle : r.part ≤ r.whole) (hwhole : r.whole < 2 ^ 64) :
    0 < r.rounded :=
  Binary64.ofRatio_pos hpart hle hwhole

/-- Shares that are rounded to one number have one double. -/
theorem toBinary64_eq_of_rounded_eq (h : r.rounded = s.rounded) : r.toBinary64 = s.toBinary64 := by
  apply Binary64.eq_of_value_eq _ h
  exact (Binary64.negative_ofRatio _ _).trans (Binary64.negative_ofRatio _ _).symm

end Ratio

end ExportDiff
