/-
# ExportDiff.Proofs.Decimal.Order — rounding keeps the order

Of two numbers up to one, the smaller one never has the greater double (`ofRatio_mono`). Rounding to an
integer keeps the order, and so it does to units in the last place where both numbers have the same
unit; a number with a smaller unit is below a power of two that the other one is not below. The double
of a number that is not too small for doubles is not zero.
-/

import ExportDiff.Proofs.Decimal.Error

namespace ExportDiff.Binary64

variable {num den num' den' : Nat}

/-! ## Rounding to an integer -/

theorem roundHalfEven_le_roundHalfEven (h : num ≤ num') :
    roundHalfEven num den ≤ roundHalfEven num' den := by
  have hquotient : num / den ≤ num' / den := Nat.div_le_div_right h
  rcases Nat.lt_or_eq_of_le hquotient with hless | hsame
  · unfold roundHalfEven
    dsimp only
    split <;> split <;> omega
  · have hparts := Nat.div_add_mod num den
    have hparts' := Nat.div_add_mod num' den
    rw [← hsame] at hparts'
    -- with one integer part, the greater number has the greater rest
    have hrest : num % den ≤ num' % den := by omega
    unfold roundHalfEven
    dsimp only
    rw [← hsame]
    split <;> split <;> omega

/-- Rounding a fraction to an integer keeps the order. -/
theorem roundHalfEven_mono (hden : 0 < den) (hden' : 0 < den')
    (h : (num / den : ℚ) ≤ num' / den') : roundHalfEven num den ≤ roundHalfEven num' den' := by
  have hcross : num * den' ≤ num' * den := by
    rw [div_le_div_iff₀ (Nat.cast_pos.mpr hden) (Nat.cast_pos.mpr hden')] at h
    exact_mod_cast h
  calc roundHalfEven num den = roundHalfEven (num * den') (den * den') :=
        (roundHalfEven_mul_right num den hden').symm
    _ ≤ roundHalfEven (num' * den) (den * den') := roundHalfEven_le_roundHalfEven hcross
    _ = roundHalfEven (num' * den) (den' * den) := by rw [Nat.mul_comm den]
    _ = roundHalfEven num' den' := roundHalfEven_mul_right num' den' hden

/-! ## The nearest double -/

theorem lastPlace_mono {v w : ℚ} (hv : 0 < v) (h : v ≤ w) : lastPlace v ≤ lastPlace w := by
  unfold lastPlace
  have hlog : Int.log 2 v ≤ Int.log 2 w := Int.log_mono_right hv h
  omega

/-- The pattern of the nearest double, from a number's last place and its units there. -/
theorem pattern_mono (hnum : 0 < num) (hden : 0 < den) (hden' : 0 < den')
    (h : (num / den : ℚ) ≤ num' / den') :
    (lastPlace (num / den) + 1074).toNat * binade + units num den
      ≤ (lastPlace (num' / den') + 1074).toNat * binade + units num' den' := by
  have hpos : (0 : ℚ) < num / den := by positivity
  have hnum' : 0 < num' := by
    by_contra hzero
    rw [Nat.eq_zero_of_not_pos hzero, Nat.cast_zero, zero_div] at h
    exact absurd hpos (not_lt.mpr h)
  have hleast : -1074 ≤ lastPlace (num / den) := le_max_right _ _
  rcases lt_or_eq_of_le (lastPlace_mono hpos h) with hless | hsame
  · -- the smaller number has two binades of units at most, and the greater one fills the first
    have hunits := units_le hnum hden
    have hfilled := (binade_le_units hnum' hden').resolve_left (by omega)
    obtain ⟨n, hn⟩ : ∃ n, (lastPlace (num' / den') + 1074).toNat
        = (lastPlace (num / den) + 1074).toNat + 1 + n := Nat.exists_eq_add_of_le (by omega)
    rw [hn, Nat.add_mul, Nat.add_mul]
    omega
  · have hround : units num den ≤ units num' den' := by
      unfold units
      rw [← hsame]
      apply roundHalfEven_mono (scale_pos hden _) (scale_pos hden' _)
      rw [div_scale, div_scale]
      gcongr
    rw [← hsame]
    omega

theorem magnitude_ofRatio (hnum : 0 < num) (hden : 0 < den) (hle : num ≤ den) :
    (ofRatio num den).magnitude
      = (lastPlace (num / den) + 1074).toNat * binade + units num den := by
  rw [ofRatio, nearest?_eq false hnum hden, dif_pos (pattern_lt hnum hden hle)]
  rfl

/-- The doubles of numbers up to one are in the order of the numbers, but for different numbers with
one double. -/
theorem ofRatio_mono (hden : 0 < den) (hden' : 0 < den') (h : (num / den : ℚ) ≤ num' / den')
    (hle : num' ≤ den') : (ofRatio num den).value ≤ (ofRatio num' den').value := by
  rcases Nat.eq_zero_or_pos num with rfl | hnum
  · rw [value_ofRatio_zero]
    exact value_nonneg _
  · have hpos : (0 : ℚ) < num / den := by positivity
    have hnum' : 0 < num' := by
      have hpos' : (0 : ℚ) < num' / den' := hpos.trans_le h
      by_contra hzero
      rw [Nat.eq_zero_of_not_pos hzero, Nat.cast_zero, zero_div] at hpos'
      exact lt_irrefl _ hpos'
    have hle₀ : num ≤ den := by
      have hone : (num' / den' : ℚ) ≤ 1 := (div_le_one (Nat.cast_pos.mpr hden')).mpr
        (by exact_mod_cast hle)
      exact_mod_cast (div_le_one (Nat.cast_pos.mpr hden)).mp (h.trans hone)
    rw [← not_lt, value_lt_value_iff, not_lt, magnitude_ofRatio hnum hden hle₀,
      magnitude_ofRatio hnum' hden' hle]
    exact pattern_mono hnum hden hden' h

/-- A fraction with a denominator of 64 bits is not rounded to zero. -/
theorem ofRatio_pos (hnum : 0 < num) (hle : num ≤ den) (hden : den < 2 ^ 64) :
    0 < (ofRatio num den).value := by
  have hden₀ : 0 < den := Nat.lt_of_lt_of_le hnum hle
  have hleast : 0 < (ofRatio 1 (2 ^ 64)).value := by
    have hzero : zero.value < (ofRatio 1 (2 ^ 64)).value := value_lt_value (by decide +kernel)
    exact (value_nonneg zero).trans_lt hzero
  refine hleast.trans_le (ofRatio_mono (by positivity) hden₀ ?_ hle)
  rw [div_le_div_iff₀ (by positivity) (Nat.cast_pos.mpr hden₀)]
  have hcross : 1 * den ≤ num * 2 ^ 64 := Nat.mul_le_mul hnum hden.le
  exact_mod_cast hcross

end ExportDiff.Binary64
