/-
# ExportDiff.Proofs.Similarity.Doubles — shares that their doubles tell apart

Two different fractions with denominators below `2 ^ 26` are further than `2 ^ -52` apart, and the
double of a share is off by half of this at most. So different shares of small wholes have different
doubles, in the same order (`less_iff_value_lt`): for texts of less than `2 ^ 26` bytes together,
comparing doubles is comparing fractions.
-/

import ExportDiff.Proofs.Similarity.Subsequence
import ExportDiff.Proofs.Text.Utf8

namespace ExportDiff.Ratio

variable {r s : Ratio}

/-- A share, not above one, of a whole that is small enough to be told from others by its double. -/
structure Small (r : Ratio) : Prop where
  part_le : r.part ≤ r.whole
  whole_lt : r.whole < 2 ^ 26

theorem small_nearlyIdentical : nearlyIdentical.Small := ⟨by decide, by decide⟩

/-- Different fractions are apart by one in units of the product of their denominators. -/
theorem one_div_le_sub (h : r.value < s.value) :
    1 / (r.whole * s.whole : ℚ) ≤ s.value - r.value := by
  have hr : (0 : ℚ) < r.whole := Nat.cast_pos.mpr r.whole_pos
  have hs : (0 : ℚ) < s.whole := Nat.cast_pos.mpr s.whole_pos
  unfold value at h ⊢
  rw [div_lt_div_iff₀ hr hs] at h
  have hstep : (r.part * s.whole + 1 : ℚ) ≤ s.part * r.whole := by exact_mod_cast h
  have hdiff : (s.part / s.whole - r.part / r.whole : ℚ)
      = (s.part * r.whole - r.part * s.whole) / (r.whole * s.whole) := by
    field_simp
  rw [hdiff]
  gcongr
  linarith

theorem Small.abs_rounded_sub_le (h : r.Small) :
    |r.rounded - r.value| ≤ 2 ^ (-53 : ℤ) :=
  Binary64.abs_value_ofRatio_sub_le r.whole_pos h.part_le

/-- The doubles of different shares are in the same order. -/
theorem Small.rounded_lt (hr : r.Small) (hs : s.Small) (h : r.value < s.value) :
    r.rounded < s.rounded := by
  have hproduct : (r.whole * s.whole : ℚ) < 2 ^ 52 := by
    have hlt := Nat.mul_lt_mul'' hr.whole_lt hs.whole_lt
    exact_mod_cast hlt
  have hpos : (0 : ℚ) < r.whole * s.whole :=
    mul_pos (Nat.cast_pos.mpr r.whole_pos) (Nat.cast_pos.mpr s.whole_pos)
  have hapart : (2 : ℚ) ^ (-53 : ℤ) + 2 ^ (-53 : ℤ) < s.value - r.value :=
    calc (2 : ℚ) ^ (-53 : ℤ) + 2 ^ (-53 : ℤ) = 1 / 2 ^ 52 := by norm_num
      _ < 1 / (r.whole * s.whole) := one_div_lt_one_div_of_lt hpos hproduct
      _ ≤ s.value - r.value := one_div_le_sub h
  have habove := (abs_le.mp hr.abs_rounded_sub_le).2
  have hbelow := (abs_le.mp hs.abs_rounded_sub_le).1
  linarith

/-- Comparing shares of small wholes by their doubles is comparing the fractions. -/
theorem less_iff_value_lt (hr : r.Small) (hs : s.Small) : r.less s = true ↔ r.value < s.value := by
  rw [less_iff]
  refine ⟨fun hlt => ?_, hr.rounded_lt hs⟩
  by_contra hle
  have hgreater := rounded_mono (not_lt.mp hle) hr.part_le
  exact absurd hlt (not_lt.mpr hgreater)

end ExportDiff.Ratio

namespace ExportDiff.Similarity

variable {s t : String}

/-- The similarity of texts that are not too long is such a share. -/
theorem small_ratio (h : s.utf8ByteSize + t.utf8ByteSize < 2 ^ 26) : (ratio s t).Small := by
  refine ⟨part_ratio_le_whole s t, ?_⟩
  by_cases hne : s ≠ "" ∨ t ≠ ""
  · rw [whole_ratio hne, Text.length_toBytes, Text.length_toBytes]
    exact h
  · obtain ⟨rfl, rfl⟩ : s = "" ∧ t = "" := by simpa using hne
    decide +kernel

/-- A text that has more in common with another one never has the smaller double. -/
theorem rounded_ratio_mono {u v : String} (h : (ratio s t).value ≤ (ratio u v).value) :
    (ratio s t).rounded ≤ (ratio u v).rounded :=
  Ratio.rounded_mono h (part_ratio_le_whole u v)

end ExportDiff.Similarity
