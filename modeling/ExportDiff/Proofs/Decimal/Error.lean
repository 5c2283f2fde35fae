/-
# ExportDiff.Proofs.Decimal.Error — how far off the nearest double is

Rounding to an integer is off by a half at most, and the double nearest to a number by half a unit in
its last place. For a number up to one, this is at most `2 ^ -53` (`abs_value_ofRatio_sub_le`). So
numbers that are further than twice this apart are in the order of their doubles.
-/

import ExportDiff.Proofs.Decimal.Nearest

namespace ExportDiff.Binary64

variable {num den k m : Nat}

/-! ## Rounding to an integer -/

theorem le_roundHalfEven (hden : 0 < den) (h : k * den ≤ num) : k ≤ roundHalfEven num den := by
  have hlow : k ≤ num / den := (Nat.le_div_iff_mul_le hden).mpr h
  unfold roundHalfEven
  dsimp only
  split
  · exact hlow
  · exact Nat.le_succ_of_le hlow

theorem roundHalfEven_le (hden : 0 < den) (h : num < k * den) : roundHalfEven num den ≤ k := by
  have hlow : num / den < k := (Nat.div_lt_iff_lt_mul hden).mpr h
  unfold roundHalfEven
  dsimp only
  split
  · exact hlow.le
  · exact hlow

/-- The rounded number is not a half away in either direction, in units of the denominator. -/
theorem roundHalfEven_bounds (num : Nat) (hden : 0 < den) :
    2 * num ≤ 2 * (roundHalfEven num den * den) + den ∧
      2 * (roundHalfEven num den * den) ≤ 2 * num + den := by
  have hparts : num / den * den + num % den = num := Nat.div_add_mod' num den
  have hmod := Nat.mod_lt num hden
  unfold roundHalfEven
  dsimp only
  split
  · omega
  · rw [Nat.add_mul]
    omega

theorem abs_roundHalfEven_sub_le (num : Nat) (hden : 0 < den) :
    |(roundHalfEven num den : ℚ) - num / den| ≤ 1 / 2 := by
  have hden' : (0 : ℚ) < den := Nat.cast_pos.mpr hden
  obtain ⟨hbelow, habove⟩ := roundHalfEven_bounds num hden
  generalize roundHalfEven num den = m at hbelow habove ⊢
  have hbelow' : (2 * num : ℚ) ≤ 2 * (m * den) + den := by exact_mod_cast hbelow
  have habove' : (2 * (m * den) : ℚ) ≤ 2 * num + den := by exact_mod_cast habove
  have hdiff : (m : ℚ) - num / den = (m * den - num) / den := by field_simp
  rw [hdiff, abs_le, le_div_iff₀ hden', div_le_iff₀ hden']
  constructor <;> linarith

/-! ## Values -/

theorem value_eq_mul_zpow (x : Binary64) : x.value = x.significand * 2 ^ x.exponent := by
  unfold value quarter
  rw [zpow_sub₀ two_ne_zero]
  norm_num
  ring

/-- A pattern that is counted from the start of a binade has this number of units for its value, the
first pattern of the next binade included. -/
theorem value_of_magnitude {x : Binary64} (h : x.magnitude = k * binade + m) (hm : m ≤ 2 * binade)
    (hnormal : k = 0 ∨ binade ≤ m) : x.value = m * 2 ^ ((k : ℤ) - 1074) := by
  have hpos : 0 < binade := by decide
  rw [value_eq_mul_zpow]
  unfold significand exponent
  rw [h]
  rcases Nat.lt_or_ge m binade with hfirst | hmore
  · obtain rfl : k = 0 := hnormal.resolve_right (Nat.not_le.mpr hfirst)
    rw [Nat.zero_mul, Nat.zero_add, if_pos (Nat.div_eq_of_lt hfirst),
      if_pos (Nat.div_eq_of_lt hfirst)]
    norm_num
  · obtain ⟨n, rfl⟩ := Nat.exists_eq_add_of_le hmore
    have hn : n ≤ binade := by omega
    have hsplit : k * binade + (binade + n) = (k + 1) * binade + n := by ring
    rw [hsplit]
    rcases Nat.lt_or_eq_of_le hn with hn | rfl
    · have hdiv : ((k + 1) * binade + n) / binade = k + 1 := by
        rw [Nat.mul_comm, Nat.mul_add_div hpos, Nat.div_eq_of_lt hn, Nat.add_zero]
      have hmod : ((k + 1) * binade + n) % binade = n := by
        rw [Nat.mul_comm, Nat.mul_add_mod, Nat.mod_eq_of_lt hn]
      rw [hdiv, hmod, if_neg (Nat.succ_ne_zero k), if_neg (Nat.succ_ne_zero k), Nat.add_comm n]
      congr 2
      push_cast
      ring
    · -- the significand starts again, in units twice as large
      have hnext : (k + 1) * binade + binade = (k + 2) * binade := by ring
      rw [hnext, Nat.mul_div_cancel _ hpos, Nat.mul_mod_left, if_neg (Nat.succ_ne_zero _),
        if_neg (Nat.succ_ne_zero _), Nat.zero_add]
      have hunit : ((k + 2 : Nat) : ℤ) - 1075 = (k - 1074) + 1 := by
        push_cast
        ring
      rw [hunit, zpow_add_one₀ two_ne_zero]
      push_cast
      ring

/-! ## Units in the last place -/

/-- The exponent of a unit in the last place, for a number. -/
def lastPlace (v : ℚ) : ℤ := max (Int.log 2 v - 52) (-1074)

/-- A fraction in such units, rounded. -/
def units (num den : Nat) : Nat :=
  let unit := lastPlace (num / den)
  roundHalfEven (num * Nat.pow 2 (-unit).toNat) (den * Nat.pow 2 unit.toNat)

theorem units_le (hnum : 0 < num) (hden : 0 < den) : units num den ≤ 2 * binade := by
  have hpos : (0 : ℚ) < num / den := by positivity
  refine roundHalfEven_le (scale_pos hden _) (Nat.lt_of_not_le fun hle => ?_)
  rw [mul_scale_le_iff hden] at hle
  have hlog : Int.log 2 (num / den : ℚ) < 53 + lastPlace (num / den) := by
    unfold lastPlace
    omega
  have hlt := (Int.lt_zpow_iff_log_lt one_lt_two hpos).mpr hlog
  rw [Nat.cast_ofNat, zpow_add₀ two_ne_zero] at hlt
  refine absurd hle (not_le.mpr (hlt.trans_eq ?_))
  norm_num [binade]

/-- Above the smallest unit, a number has all places. -/
theorem binade_le_units (hnum : 0 < num) (hden : 0 < den) :
    lastPlace (num / den) = -1074 ∨ binade ≤ units num den := by
  have hpos : (0 : ℚ) < num / den := by positivity
  rw [or_iff_not_imp_left]
  intro hplace
  have hlog : 52 + lastPlace (num / den) ≤ Int.log 2 (num / den : ℚ) := by
    unfold lastPlace at hplace ⊢
    omega
  refine le_roundHalfEven (scale_pos hden _) ((mul_scale_le_iff hden _ _).mpr ?_)
  have hle := (Int.zpow_le_iff_le_log one_lt_two hpos).mpr hlog
  rw [Nat.cast_ofNat, zpow_add₀ two_ne_zero] at hle
  refine le_of_eq_of_le ?_ hle
  norm_num [binade]

theorem abs_units_sub_le (num : Nat) (hden : 0 < den) :
    |units num den * 2 ^ lastPlace (num / den) - (num / den : ℚ)|
      ≤ 2 ^ lastPlace (num / den) / 2 := by
  have herror := abs_roundHalfEven_sub_le
    (num * Nat.pow 2 (-lastPlace (num / den)).toNat) (scale_pos hden (lastPlace (num / den)))
  change |(units num den : ℚ) - _| ≤ _ at herror
  rw [div_scale] at herror
  have hunit : (0 : ℚ) < 2 ^ lastPlace (num / den) := by positivity
  calc |units num den * 2 ^ lastPlace (num / den) - (num / den : ℚ)|
      = |(units num den - num / den / 2 ^ lastPlace (num / den) : ℚ)|
          * 2 ^ lastPlace (num / den) := by
        rw [← abs_of_pos hunit, ← abs_mul, abs_of_pos hunit, sub_mul,
          div_mul_cancel₀ _ hunit.ne']
    _ ≤ 1 / 2 * 2 ^ lastPlace (num / den) := by gcongr
    _ = 2 ^ lastPlace (num / den) / 2 := by ring

/-! ## The nearest double -/

theorem nearest?_eq (negative : Bool) (hnum : 0 < num) (hden : 0 < den) :
    nearest? negative num den =
      if h : (lastPlace (num / den) + 1074).toNat * binade + units num den < 2047 * binade then
        some ⟨negative, (lastPlace (num / den) + 1074).toNat * binade + units num den, h⟩
      else none := by
  unfold nearest?
  rw [if_neg hnum.ne', binaryExponent_eq_log hnum hden]
  rfl

/-- The double nearest to a number is off by half a unit in the last place at most. -/
theorem abs_value_nearest?_sub_le {negative : Bool} {x : Binary64} (hnum : 0 < num) (hden : 0 < den)
    (h : nearest? negative num den = some x) :
    |x.value - num / den| ≤ 2 ^ lastPlace (num / den) / 2 := by
  have hleast : -1074 ≤ lastPlace (num / den) := le_max_right _ _
  rw [nearest?_eq negative hnum hden] at h
  split at h
  · have hmagnitude := congrArg magnitude (Option.some.inj h)
    have hnormal : (lastPlace (num / den) + 1074).toNat = 0 ∨ binade ≤ units num den :=
      (binade_le_units hnum hden).imp_left fun hplace => by rw [hplace]; rfl
    have hplace : ((lastPlace (num / den) + 1074).toNat : ℤ) - 1074 = lastPlace (num / den) := by
      omega
    rw [value_of_magnitude hmagnitude.symm (units_le hnum hden) hnormal, hplace]
    exact abs_units_sub_le num hden
  · cases h

theorem value_nonneg (x : Binary64) : 0 ≤ x.value := by
  rw [value_eq_mul_zpow]
  positivity

theorem value_ofRatio_zero (den : Nat) : (ofRatio 0 den).value = 0 := by
  rw [ofRatio, nearest?, if_pos rfl]
  norm_num [value, significand, zero, withSign]

theorem lastPlace_le (hnum : 0 < num) (hden : 0 < den) (hle : num ≤ den) :
    lastPlace (num / den) ≤ -52 := by
  have hpos : (0 : ℚ) < num / den := by positivity
  have hone : (num / den : ℚ) < 2 ^ (1 : ℤ) := by
    have hle' : (num : ℚ) ≤ den := by exact_mod_cast hle
    refine ((div_le_one (Nat.cast_pos.mpr hden)).mpr hle').trans_lt ?_
    norm_num
  have hlog := (Int.lt_zpow_iff_log_lt one_lt_two hpos).mp hone
  unfold lastPlace
  omega

/-- The double nearest to a number up to one is finite. -/
theorem pattern_lt (hnum : 0 < num) (hden : 0 < den) (hle : num ≤ den) :
    (lastPlace (num / den) + 1074).toNat * binade + units num den < 2047 * binade := by
  have hunits := units_le hnum hden
  have hplace := lastPlace_le hnum hden hle
  have hlast : (lastPlace (num / den) + 1074).toNat ≤ 1022 := by omega
  unfold binade at hunits ⊢
  omega

/-- The double nearest to a number up to one is off by `2 ^ -53` at most. -/
theorem abs_value_ofRatio_sub_le (hden : 0 < den) (hle : num ≤ den) :
    |(ofRatio num den).value - num / den| ≤ 2 ^ (-53 : ℤ) := by
  rcases Nat.eq_zero_or_pos num with rfl | hnum
  · rw [value_ofRatio_zero]
    norm_num
  obtain ⟨x, hx⟩ : ∃ x, nearest? false num den = some x := by
    rw [nearest?_eq false hnum hden, dif_pos (pattern_lt hnum hden hle)]
    exact ⟨_, rfl⟩
  rw [ofRatio, hx, Option.getD_some]
  calc |x.value - num / den| ≤ 2 ^ lastPlace (num / den) / 2 :=
        abs_value_nearest?_sub_le hnum hden hx
    _ ≤ 2 ^ (-52 : ℤ) / 2 := by
      gcongr
      · exact one_le_two
      · exact lastPlace_le hnum hden hle
    _ = 2 ^ (-53 : ℤ) := by norm_num

end ExportDiff.Binary64
