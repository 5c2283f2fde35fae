/-
# ExportDiff.Proofs.Decimal.Shortest — the shortest decimal stands for its double

Each trial of `shortest` gives a multiple of its power of ten that the double stands for, or none. One
of the seventeen trials gives one: a power sixteen places below the leading digit is smaller than the
interval, which is at least three quarters of a unit wide, or four where the significand is large, so
the interval holds one of the two multiples next to the value. So the shortest decimal is a number
that the double stands for (`standsFor_shortest`), and no double of another magnitude has it.
-/

import ExportDiff.Proofs.Decimal.Interval

namespace ExportDiff

namespace Decimal

/-- The number that a decimal is. -/
def value (x : Decimal) : ℚ := x.digits * 10 ^ x.exponent

/-- Trailing zeros are moved without changing the number. -/
theorem value_trim (d : Nat) (e : ℤ) : (trim d e).value = d * 10 ^ e := by
  fun_induction trim d e with
  | case1 d e h ih =>
    have hd : (d : ℚ) = 10 * (d / 10 : Nat) := by exact_mod_cast (show d = 10 * (d / 10) by omega)
    rw [ih, hd, zpow_add_one₀ (by norm_num)]
    ring
  | case2 => rfl

/-- A positive number has no more digits than it takes to reach it. -/
theorem ten_pow_length_le {n : Nat} (hn : 0 < n) :
    10 ^ (length n - 1) ≤ n := by
  unfold length
  rcases Nat.eq_zero_or_pos ((Nat.toDigits 10 n).length - 1) with hone | hmore
  · rw [hone]
    exact hn
  · rw [← not_lt, ← Nat.length_toDigits_le_iff (by decide) hmore]
    omega

end Decimal

namespace Binary64

variable {x : Binary64} {k : ℤ} {d : Nat}

/-! ## One trial -/

theorem roundHalfEven_eq (num den : Nat) :
    roundHalfEven num den = num / den ∨ roundHalfEven num den = num / den + 1 := by
  unfold roundHalfEven
  dsimp only
  split
  · exact Or.inl rfl
  · exact Or.inr rfl

/-- What a trial gives, the double stands for. -/
theorem standsFor_of_onGrid? (h : x.onGrid? k = some d) : x.StandsFor (d * 10 ^ k) := by
  rw [← covers_iff]
  unfold onGrid? at h
  dsimp only at h
  split at h
  · next hlow hhigh =>
    rcases roundHalfEven_eq (x.scaled (4 * x.significand) k).1 (x.scaled (4 * x.significand) k).2
      with hround | hround
    · rw [← Option.some.inj h, hround]
      exact hlow
    · rw [← Option.some.inj h, hround]
      exact hhigh
  · next hlow _ =>
    rw [← Option.some.inj h]
    exact hlow
  · next _ hhigh =>
    rw [← Option.some.inj h]
    exact hhigh
  · cases h

/-- Inside the boundaries, a double stands for every number. -/
theorem standsFor_of_lt {v : ℚ} (hlow : x.low < v) (hhigh : v < x.high) : x.StandsFor v := by
  unfold StandsFor
  split
  · exact ⟨hlow.le, hhigh.le⟩
  · exact ⟨hlow, hhigh⟩

theorem value_eq_mul_quarter (x : Binary64) :
    x.value = (4 * x.significand : Nat) * x.quarter := by
  unfold value
  push_cast
  rfl

/-- The two multiples that a trial looks at are next to the value. -/
theorem value_between (x : Binary64) (k : ℤ) :
    let d := (x.scaled (4 * x.significand) k).1 / (x.scaled (4 * x.significand) k).2
    (d : ℚ) * 10 ^ k ≤ x.value ∧ x.value < (d + 1 : Nat) * 10 ^ k := by
  intro d
  have hden := x.scaled_pos (4 * x.significand) k
  rw [value_eq_mul_quarter, ← le_scaled_iff, ← not_le, ← le_scaled_iff, not_le]
  exact ⟨Nat.div_mul_le_self _ _, Nat.lt_mul_of_div_lt (Nat.lt_succ_self d) hden⟩

/-- A trial with a power of ten that is smaller than the interval gives a multiple of it. -/
theorem exists_onGrid? (hx : 0 < x.magnitude) (h : 10 ^ k < x.high - x.low) :
    ∃ d, x.onGrid? k = some d := by
  obtain ⟨hbelow, habove⟩ := x.value_between k
  have hlow := low_lt_value hx
  have hhigh := x.value_lt_high
  unfold onGrid?
  dsimp only
  split
  · exact ⟨_, rfl⟩
  · exact ⟨_, rfl⟩
  · exact ⟨_, rfl⟩
  · next hd hd' =>
    -- both multiples lie outside, so the interval lies between them
    exfalso
    have hout : ¬ x.StandsFor _ := (x.covers_iff _ k).not.mp (Bool.eq_false_iff.mp hd)
    have hout' : ¬ x.StandsFor _ := (x.covers_iff _ k).not.mp (Bool.eq_false_iff.mp hd')
    have hle := not_lt.mp fun hlt => hout (standsFor_of_lt hlt (hbelow.trans_lt hhigh))
    have hle' := not_lt.mp fun hlt => hout' (standsFor_of_lt (hlow.trans habove) hlt)
    push_cast at hle'
    linarith

/-! ## The last trial -/

/-- A significand is below `10 ^ 16`, and at a power of two below three quarters of it. -/
theorem four_mul_significand_lt (x : Binary64) :
    4 * x.significand < (2 + x.below) * 10 ^ 16 := by
  unfold significand below atPowerOfTwo binade
  split <;> split <;> simp at * <;> omega

/-- Sixteen places below a power of ten that the value reaches, a power is smaller than the
interval. -/
theorem ten_zpow_lt_width {e : ℤ} (hx : 0 < x.magnitude) (h : 10 ^ e ≤ x.value) :
    10 ^ (e - 16) < x.high - x.low := by
  have hquarter := x.quarter_pos
  have hsig : (4 * x.significand : ℚ) < (2 + x.below) * 10 ^ 16 := by
    exact_mod_cast x.four_mul_significand_lt
  have hlow : x.low = (4 * x.significand - x.below) * x.quarter := by
    have hle : x.below ≤ 4 * x.significand := by
      have hsig := significand_pos hx
      have hbelow := x.below_le.2
      omega
    unfold low
    rw [Nat.cast_sub hle]
    push_cast
    rfl
  calc (10 : ℚ) ^ (e - 16) = 10 ^ e / 10 ^ 16 := by
        rw [zpow_sub₀ (by norm_num)]
        norm_num
    _ ≤ x.value / 10 ^ 16 := by gcongr
    _ < (2 + x.below) * x.quarter := by
        unfold value
        rw [div_lt_iff₀ (by norm_num)]
        nlinarith
    _ = x.high - x.low := by
        rw [hlow]
        unfold high
        ring

/-! ## The leading digit -/

theorem exponent_ge (x : Binary64) : -1074 ≤ x.exponent := by
  unfold exponent
  split
  · exact le_refl _
  · next hfield =>
    have hpos : 0 < x.magnitude / binade := Nat.pos_of_ne_zero hfield
    omega

/-- The smallest magnitude above zero exceeds `10 ^ -324`. -/
theorem ten_zpow_le_value (hx : 0 < x.magnitude) : 10 ^ (-324 : ℤ) ≤ x.value := by
  have hsig : (1 : ℚ) ≤ x.significand := by exact_mod_cast significand_pos hx
  have hquarter : (2 : ℚ) ^ (-1074 - 2 : ℤ) ≤ x.quarter :=
    zpow_le_zpow_right₀ one_le_two (by have := x.exponent_ge; omega)
  have hpowers : (10 : ℚ) ^ (-324 : ℤ) ≤ 2 ^ (-1074 : ℤ) := by
    -- sixth powers of numbers that are small enough to be compared
    have hroots : ((10 : ℚ) ^ (-54 : ℤ)) ^ 6 ≤ ((2 : ℚ) ^ (-179 : ℤ)) ^ 6 := by
      gcongr
      norm_num
    rw [← zpow_natCast, ← zpow_mul, ← zpow_natCast, ← zpow_mul] at hroots
    exact hroots
  calc (10 : ℚ) ^ (-324 : ℤ) ≤ 2 ^ (-1074 : ℤ) := hpowers
    _ = 4 * 1 * 2 ^ (-1074 - 2 : ℤ) := by
        rw [zpow_sub₀ two_ne_zero]
        ring
    _ ≤ x.value := by
        unfold value
        gcongr

/-- The power of ten at the leading digit is not above the value. -/
theorem ten_zpow_leadingExponent_le (hx : 0 < x.magnitude) : 10 ^ x.leadingExponent ≤ x.value := by
  obtain ⟨hbelow, habove⟩ := x.value_between (-324)
  unfold leadingExponent
  dsimp only at hbelow habove ⊢
  generalize (x.scaled (4 * x.significand) (-324)).1 / (x.scaled (4 * x.significand) (-324)).2 = n
    at hbelow habove
  -- the value is at least one unit, so its integral part has a leading digit
  have hn : 0 < n := by
    have hone := (ten_zpow_le_value hx).trans_lt habove
    have hlt : (1 : ℚ) < (n + 1 : Nat) := by
      by_contra hle
      have := mul_le_mul_of_nonneg_right (not_lt.mp hle) (by positivity : (0 : ℚ) ≤ 10 ^ (-324 : ℤ))
      linarith
    have := Nat.one_lt_cast.mp hlt
    omega
  have hlength : 0 < Decimal.length n := Nat.length_toDigits_pos
  calc (10 : ℚ) ^ ((Decimal.length n : ℤ) - 325)
      = (10 ^ (Decimal.length n - 1) : Nat) * 10 ^ (-324 : ℤ) := by
        rw [Nat.cast_pow, ← zpow_natCast, Nat.cast_ofNat, ← zpow_add₀ (by norm_num)]
        congr 1
        omega
    _ ≤ n * 10 ^ (-324 : ℤ) := by
        gcongr
        exact Decimal.ten_pow_length_le hn
    _ ≤ x.value := hbelow

/-- The double stands for its shortest decimal. -/
theorem standsFor_shortest (hx : 0 < x.magnitude) : x.StandsFor x.shortest.value := by
  have hzero : x.isZero = false := by simp [isZero, hx.ne']
  unfold shortest
  rw [hzero, if_neg Bool.false_ne_true]
  dsimp only
  cases hhit : (List.range 17).findSome? fun (n : Nat) =>
      (x.onGrid? (x.leadingExponent - n)).map fun d => Decimal.trim d (x.leadingExponent - n) with
  | none =>
    -- the last trial does not fail
    obtain ⟨d, hd⟩ := exists_onGrid? hx (ten_zpow_lt_width hx (ten_zpow_leadingExponent_le hx))
    have hnone := List.findSome?_eq_none_iff.mp hhit 16 (by decide)
    rw [Option.map_eq_none_iff] at hnone
    exact absurd (hnone.symm.trans hd) (by simp)
  | some found =>
    obtain ⟨n, -, hfound⟩ := List.exists_of_findSome?_eq_some hhit
    obtain ⟨d, hd, rfl⟩ := Option.map_eq_some_iff.mp hfound
    rw [Option.getD_some, Decimal.value_trim]
    exact standsFor_of_onGrid? hd

/-! ## One magnitude for each shortest decimal -/

theorem shortest_value_pos (hx : 0 < x.magnitude) : 0 < x.shortest.value :=
  (low_pos hx).trans_le (standsFor_shortest hx).bounds.1

theorem shortest_value_eq_zero (hx : x.magnitude = 0) : x.shortest.value = 0 := by
  simp [shortest, isZero, hx, Decimal.value]

/-- Doubles whose shortest decimals are one number have one magnitude. -/
theorem magnitude_eq_of_shortest {x y : Binary64} (h : x.shortest.value = y.shortest.value) :
    x.magnitude = y.magnitude := by
  rcases Nat.eq_zero_or_pos x.magnitude with hx | hx
  · rcases Nat.eq_zero_or_pos y.magnitude with hy | hy
    · rw [hx, hy]
    · rw [shortest_value_eq_zero hx] at h
      exact absurd h (shortest_value_pos hy).ne
  · rcases Nat.eq_zero_or_pos y.magnitude with hy | hy
    · rw [shortest_value_eq_zero hy] at h
      exact absurd h (shortest_value_pos hx).ne'
    · have hstands := standsFor_shortest hy
      rw [← h] at hstands
      exact (standsFor_shortest hx).magnitude_eq hstands

end Binary64

end ExportDiff
