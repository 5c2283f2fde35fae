/-
# ExportDiff.Proofs.Decimal.Nearest — the double nearest to a number

A fraction is rounded by way of its numerator and denominator, but two fractions of one number are
rounded to one double (`nearest?_congr`): the exponent of a fraction is the logarithm of its number,
and rounding to an integer does not change when both parts of a fraction are multiplied.
-/

import Mathlib.Data.Int.Log
import Mathlib.Data.Rat.Floor
import ExportDiff.Proofs.Decimal.Interval

namespace ExportDiff.Binary64

variable {num den num' den' : Nat}

/-! ## Rounding to an integer -/

/-- A factor of both parts of a fraction does not change its rounding. -/
theorem roundHalfEven_mul_right (num den : Nat) {c : Nat} (hc : 0 < c) :
    roundHalfEven (num * c) (den * c) = roundHalfEven num den := by
  have hlt : 2 * (num % den * c) < den * c ↔ 2 * (num % den) < den := by
    rw [← Nat.mul_assoc]
    exact Nat.mul_lt_mul_right hc
  have heq : 2 * (num % den * c) = den * c ↔ 2 * (num % den) = den := by
    rw [← Nat.mul_assoc]
    exact Nat.mul_left_inj hc.ne'
  unfold roundHalfEven
  simp only [Nat.mul_div_mul_right _ _ hc, Nat.mul_mod_mul_right, hlt, heq]

theorem roundHalfEven_congr (hden : 0 < den) (hden' : 0 < den') (h : num * den' = num' * den) :
    roundHalfEven num den = roundHalfEven num' den' := by
  calc roundHalfEven num den = roundHalfEven (num * den') (den * den') :=
        (roundHalfEven_mul_right num den hden').symm
    _ = roundHalfEven (num' * den) (den' * den) := by rw [h, Nat.mul_comm den]
    _ = roundHalfEven num' den' := roundHalfEven_mul_right num' den' hden

/-! ## The exponent -/

theorem scale_pos (hden : 0 < den) (unit : ℤ) : 0 < den * Nat.pow 2 unit.toNat :=
  Nat.mul_pos hden (Nat.pow_pos (by decide))

/-- A fraction in units of a power of two. -/
theorem div_scale (num den : Nat) (unit : ℤ) :
    ((num * Nat.pow 2 (-unit).toNat : Nat) : ℚ) / (den * Nat.pow 2 unit.toNat : Nat)
      = num / den / 2 ^ unit := by
  rw [zpow_eq_div two_ne_zero]
  simp only [Nat.pow_eq]
  push_cast
  field_simp

/-- Comparing a fraction with a number of such units, by natural numbers. -/
theorem mul_scale_le_iff (hden : 0 < den) (k : Nat) (unit : ℤ) :
    k * (den * Nat.pow 2 unit.toNat) ≤ num * Nat.pow 2 (-unit).toNat
      ↔ (k * 2 ^ unit : ℚ) ≤ num / den := by
  have hscale : (0 : ℚ) < (den * Nat.pow 2 unit.toNat : Nat) :=
    Nat.cast_pos.mpr (scale_pos hden unit)
  rw [← Nat.cast_le (α := ℚ), Nat.cast_mul k, ← le_div_iff₀ hscale, div_scale,
    le_div_iff₀ (by positivity)]

/-- Comparing a fraction with a power of two, by natural numbers. -/
theorem mul_pow_lt_iff (hden : 0 < den) (e : ℤ) :
    num * Nat.pow 2 (-e).toNat < den * Nat.pow 2 e.toNat ↔ (num / den : ℚ) < 2 ^ e := by
  have hone : 1 * (den * Nat.pow 2 e.toNat) ≤ num * Nat.pow 2 (-e).toNat
      ↔ ((1 : Nat) * 2 ^ e : ℚ) ≤ num / den := mul_scale_le_iff hden 1 e
  rw [Nat.one_mul, Nat.cast_one, one_mul] at hone
  rw [← not_le, ← not_le, hone]

/-- A fraction lies between the powers that the first binary digits of its parts give. -/
theorem zpow_lt_div_and_lt_zpow (hnum : 0 < num) (hden : 0 < den) :
    (2 : ℚ) ^ ((num.log2 : ℤ) - den.log2 - 1) < num / den ∧
      (num / den : ℚ) < 2 ^ ((num.log2 : ℤ) - den.log2 + 1) := by
  have hnumLow : (2 : ℚ) ^ num.log2 ≤ num := by exact_mod_cast Nat.log2_self_le hnum.ne'
  have hnumHigh : (num : ℚ) < 2 ^ (num.log2 + 1) := by exact_mod_cast Nat.lt_log2_self
  have hdenLow : (2 : ℚ) ^ den.log2 ≤ den := by exact_mod_cast Nat.log2_self_le hden.ne'
  have hdenHigh : (den : ℚ) < 2 ^ (den.log2 + 1) := by exact_mod_cast Nat.lt_log2_self
  have hden' : (0 : ℚ) < den := Nat.cast_pos.mpr hden
  constructor
  · calc (2 : ℚ) ^ ((num.log2 : ℤ) - den.log2 - 1) = 2 ^ num.log2 / 2 ^ (den.log2 + 1) := by
          rw [sub_sub, zpow_sub₀ two_ne_zero, ← Nat.cast_succ, zpow_natCast, zpow_natCast]
      _ < num / den := div_lt_div₀' hnumLow hdenHigh (by positivity) hden'
  · calc (num / den : ℚ) < 2 ^ (num.log2 + 1) / 2 ^ den.log2 :=
          div_lt_div₀ hnumHigh hdenLow (by positivity) (by positivity)
      _ = 2 ^ ((num.log2 : ℤ) - den.log2 + 1) := by
          rw [sub_add_eq_add_sub, zpow_sub₀ two_ne_zero, ← Nat.cast_succ, zpow_natCast,
            zpow_natCast]

/-- The exponent of a fraction is the logarithm of its number. -/
theorem binaryExponent_eq_log (hnum : 0 < num) (hden : 0 < den) :
    binaryExponent num den = Int.log 2 (num / den : ℚ) := by
  have hpos : (0 : ℚ) < num / den := by positivity
  have hle : ∀ e : ℤ, (2 : ℚ) ^ e ≤ num / den ↔ e ≤ Int.log 2 (num / den : ℚ) :=
    fun e => Int.zpow_le_iff_le_log one_lt_two hpos
  have hlt : ∀ e : ℤ, (num / den : ℚ) < 2 ^ e ↔ Int.log 2 (num / den : ℚ) < e :=
    fun e => Int.lt_zpow_iff_log_lt one_lt_two hpos
  obtain ⟨hlow, hhigh⟩ := zpow_lt_div_and_lt_zpow hnum hden
  have hlow := (hle _).mp hlow.le
  have hhigh := (hlt _).mp hhigh
  unfold binaryExponent
  dsimp only
  split
  · next hguess =>
    have hless := (hlt _).mp ((mul_pow_lt_iff hden _).mp hguess)
    omega
  · next hguess =>
    have hmore := (hle _).mp (not_lt.mp ((mul_pow_lt_iff hden _).not.mp hguess))
    omega

/-! ## The nearest double -/

/-- Two fractions of one number have one nearest double. -/
theorem nearest?_congr (negative : Bool) (hden : 0 < den) (hden' : 0 < den')
    (h : num * den' = num' * den) : nearest? negative num den = nearest? negative num' den' := by
  have hzero : num = 0 ↔ num' = 0 := by
    constructor
    · rintro rfl
      simpa [hden.ne'] using h.symm
    · rintro rfl
      simpa [hden'.ne'] using h
  unfold nearest?
  by_cases hnum : num = 0
  · rw [if_pos hnum, if_pos (hzero.mp hnum)]
  · have hnum' : num' ≠ 0 := fun hnum' => hnum (hzero.mpr hnum')
    have hvalue : (num / den : ℚ) = num' / den' := by
      rw [div_eq_div_iff (Nat.cast_ne_zero.mpr hden.ne') (Nat.cast_ne_zero.mpr hden'.ne')]
      exact_mod_cast h
    have hexponent : binaryExponent num den = binaryExponent num' den' := by
      rw [binaryExponent_eq_log (Nat.pos_of_ne_zero hnum) hden,
        binaryExponent_eq_log (Nat.pos_of_ne_zero hnum') hden', hvalue]
    have hround : ∀ p q : Nat, roundHalfEven (num * Nat.pow 2 p) (den * Nat.pow 2 q)
        = roundHalfEven (num' * Nat.pow 2 p) (den' * Nat.pow 2 q) := by
      intro p q
      have hunit : 0 < Nat.pow 2 q := Nat.pow_pos (by decide)
      refine roundHalfEven_congr (Nat.mul_pos hden hunit) (Nat.mul_pos hden' hunit) ?_
      rw [Nat.mul_mul_mul_comm, h, Nat.mul_mul_mul_comm]
    rw [if_neg hnum, if_neg hnum', hexponent]
    dsimp only
    rw [hround]

end ExportDiff.Binary64
