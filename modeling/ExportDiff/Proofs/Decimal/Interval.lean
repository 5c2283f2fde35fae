/-
# ExportDiff.Proofs.Decimal.Interval — the numbers that a double stands for

A magnitude stands for the interval between two boundaries, half-way to the next smaller and half-way
to the next greater magnitude; `covers` decides membership, by natural numbers alone (`covers_iff`).
The upper boundary of a magnitude is the lower one of the next. So the intervals of two magnitudes
have at most a boundary in common, and since the significands of neighbours are not both even, no
number belongs to both (`StandsFor.magnitude_eq`).
-/

import Mathlib.Algebra.Order.Field.Power
import Mathlib.Algebra.Order.Field.Rat
import Mathlib.Tactic.FieldSimp
import Mathlib.Tactic.Linarith
import Mathlib.Tactic.Positivity
import Mathlib.Tactic.Ring
import ExportDiff.Decimal.Shortest

namespace ExportDiff.Binary64

/-! ## Values -/

/-- A quarter of a unit in the last place. -/
def quarter (x : Binary64) : ℚ := 2 ^ (x.exponent - 2)

/-- The number that a magnitude is exactly. -/
def value (x : Binary64) : ℚ := 4 * x.significand * x.quarter

/-- How many quarters of a unit the lower boundary is below the value. -/
def below (x : Binary64) : Nat := if x.atPowerOfTwo then 1 else 2

/-- The lower boundary. -/
def low (x : Binary64) : ℚ := (4 * x.significand - x.below : Nat) * x.quarter

/-- The upper boundary. -/
def high (x : Binary64) : ℚ := (4 * x.significand + 2) * x.quarter

/-- The double that is nearest to a number is one with this magnitude; a number on a boundary goes to
the even one. -/
def StandsFor (x : Binary64) (v : ℚ) : Prop :=
  if x.significand % 2 = 0 then x.low ≤ v ∧ v ≤ x.high else x.low < v ∧ v < x.high

section Values

variable {x : Binary64}

theorem quarter_pos (x : Binary64) : 0 < x.quarter := by
  unfold quarter
  positivity

theorem significand_pos (h : 0 < x.magnitude) : 0 < x.significand := by
  unfold significand binade
  split <;> omega

theorem below_le (x : Binary64) : 1 ≤ x.below ∧ x.below ≤ 2 := by
  unfold below
  split <;> decide

theorem low_pos (h : 0 < x.magnitude) : 0 < x.low := by
  have hsig := significand_pos h
  have hbelow := x.below_le
  have hquarters : 0 < 4 * x.significand - x.below := by omega
  unfold low
  exact mul_pos (Nat.cast_pos.mpr hquarters) x.quarter_pos

theorem StandsFor.bounds {v : ℚ} (h : x.StandsFor v) : x.low ≤ v ∧ v ≤ x.high := by
  unfold StandsFor at h
  split at h
  · exact h
  · exact ⟨h.1.le, h.2.le⟩

theorem value_lt_high (x : Binary64) : x.value < x.high := by
  have hquarter := x.quarter_pos
  unfold value high
  nlinarith

theorem low_lt_value (h : 0 < x.magnitude) : x.low < x.value := by
  have hsig := significand_pos h
  have hbelow := x.below_le.1
  have hsub : ((4 * x.significand - x.below : Nat) : ℚ) < 4 * x.significand := by
    exact_mod_cast (show 4 * x.significand - x.below < 4 * x.significand by omega)
  exact mul_lt_mul_of_pos_right hsub x.quarter_pos

end Values

/-! ## Comparing by natural numbers -/

/-- An integer power as a fraction of natural powers. -/
theorem zpow_eq_div {a : ℚ} (ha : a ≠ 0) (z : ℤ) : a ^ z = a ^ z.toNat / a ^ (-z).toNat := by
  rw [← zpow_natCast, ← zpow_natCast, ← zpow_sub₀ ha]
  congr 1
  omega

theorem scaled_pos (x : Binary64) (n : Nat) (k : ℤ) : 0 < (x.scaled n k).2 :=
  Nat.mul_pos (Nat.pow_pos (by decide)) (Nat.pow_pos (by decide))

/-- The fraction of `scaled` is a number of quarter units, in units of `10 ^ k`. -/
theorem scaled_eq (x : Binary64) (n : Nat) (k : ℤ) :
    ((x.scaled n k).1 : ℚ) = n * x.quarter / 10 ^ k * (x.scaled n k).2 := by
  have htwo := zpow_eq_div (two_ne_zero' ℚ) (x.exponent - 2)
  have hten := zpow_eq_div (by norm_num : (10 : ℚ) ≠ 0) k
  rw [neg_sub] at htwo
  unfold scaled quarter
  rw [htwo, hten]
  simp only [Nat.pow_eq]
  push_cast
  field_simp

/-- `d` units of `10 ^ k` are at least `n` quarter units. -/
theorem scaled_le_iff (x : Binary64) (n d : Nat) (k : ℤ) :
    (x.scaled n k).1 ≤ d * (x.scaled n k).2 ↔ n * x.quarter ≤ d * 10 ^ k := by
  have hden : (0 : ℚ) < (x.scaled n k).2 := Nat.cast_pos.mpr (x.scaled_pos n k)
  rw [← Nat.cast_le (α := ℚ), Nat.cast_mul, scaled_eq, mul_le_mul_iff_left₀ hden,
    div_le_iff₀ (by positivity)]

theorem le_scaled_iff (x : Binary64) (n d : Nat) (k : ℤ) :
    d * (x.scaled n k).2 ≤ (x.scaled n k).1 ↔ d * 10 ^ k ≤ n * x.quarter := by
  have hden : (0 : ℚ) < (x.scaled n k).2 := Nat.cast_pos.mpr (x.scaled_pos n k)
  rw [← Nat.cast_le (α := ℚ), Nat.cast_mul, scaled_eq, mul_le_mul_iff_left₀ hden,
    le_div_iff₀ (by positivity)]

/-- Membership in the interval is decided exactly. -/
theorem covers_iff (x : Binary64) (d : Nat) (k : ℤ) :
    x.covers d k = true ↔ x.StandsFor (d * 10 ^ k) := by
  -- both ends are brought to the one denominator that `scaled` has for all numbers of quarters
  have hlow := x.scaled_le_iff (4 * x.significand - x.below) d k
  have hhigh := x.le_scaled_iff (4 * x.significand + 2) d k
  have hlow' := x.le_scaled_iff (4 * x.significand - x.below) d k
  have hhigh' := x.scaled_le_iff (4 * x.significand + 2) d k
  unfold covers StandsFor low high
  push_cast at hhigh hhigh'
  by_cases heven : x.significand % 2 = 0
  · simp only [heven, if_true, Bool.and_eq_true, decide_eq_true_eq]
    exact and_congr hlow hhigh
  · simp only [heven, if_false, Bool.and_eq_true, decide_eq_true_eq]
    rw [← not_le, ← not_le, ← not_le, ← not_le]
    exact and_congr (not_congr hlow') (not_congr hhigh')

/-! ## Boundaries -/

/-- The number half-way between a magnitude and the next greater one. -/
def boundary (m : Nat) : ℚ :=
  if m / binade = 0 then (2 * m + 1) * 2 ^ (-1075 : ℤ)
  else (2 * (m % binade + binade : Nat) + 1) * 2 ^ ((m / binade : Nat) - 1076 : ℤ)

/-- The next greater magnitude is in the same binade or the first one of the next. -/
theorem div_mod_succ (m : Nat) :
    (m % binade + 1 < binade ∧ (m + 1) / binade = m / binade ∧ (m + 1) % binade = m % binade + 1) ∨
      (m % binade + 1 = binade ∧ (m + 1) / binade = m / binade + 1 ∧ (m + 1) % binade = 0) := by
  unfold binade
  omega

/-- The unit doubles from a binade to the next. -/
theorem two_zpow_succ_sub (q : Nat) (z : ℤ) :
    (2 : ℚ) ^ ((q + 1 : Nat) - z) = 2 * 2 ^ ((q : ℤ) - z) := by
  rw [← zpow_one_add₀ two_ne_zero]
  congr 1
  push_cast
  ring

theorem boundary_lt_succ (m : Nat) : boundary m < boundary (m + 1) := by
  obtain ⟨-, hdiv, hmod⟩ | ⟨hlast, hdiv, hmod⟩ := div_mod_succ m
  · unfold boundary
    rw [hdiv, hmod]
    split
    · gcongr
      exact lt_add_one m
    · gcongr
      exact lt_add_one _
  · have hlast' : ((m % binade : Nat) : ℚ) + 1 = binade := by exact_mod_cast hlast
    unfold boundary
    rw [hdiv, hmod, if_neg (Nat.succ_ne_zero _), Nat.zero_add]
    split
    · next hzero =>
      have hm : (m : ℚ) + 1 = binade := by
        rw [← hlast', Nat.mod_eq_of_lt (Nat.lt_of_div_eq_zero (by decide) hzero)]
      rw [hzero, ← hm]
      norm_num
    · rw [two_zpow_succ_sub, Nat.cast_add, ← hlast']
      have hunit : (0 : ℚ) < 2 ^ ((m / binade : Nat) - 1076 : ℤ) := by positivity
      have hmod : (0 : ℚ) ≤ (m % binade : Nat) := Nat.cast_nonneg _
      nlinarith

/-- Boundaries increase. -/
theorem boundary_strictMono : StrictMono boundary := strictMono_nat_of_lt_succ boundary_lt_succ

/-- The upper boundary of a magnitude. -/
theorem high_eq (x : Binary64) : x.high = boundary x.magnitude := by
  have hhalf : ∀ z : ℤ, (2 : ℚ) ^ (z - 1) = 2 ^ z / 2 := zpow_sub_one₀ two_ne_zero
  unfold high quarter boundary significand exponent
  split
  · rw [show (-1074 - 2 : ℤ) = -1075 - 1 by norm_num, hhalf]
    ring
  · rw [show ∀ q : ℤ, q - 1075 - 2 = q - 1076 - 1 by intro q; ring, hhalf]
    ring

/-- The lower boundary of a magnitude is the upper one of the magnitude before. -/
theorem low_eq {x : Binary64} {m : Nat} (h : x.magnitude = m + 1) : x.low = boundary m := by
  have hhalf : ∀ z : ℤ, (2 : ℚ) ^ (z - 1) = 2 ^ z / 2 := zpow_sub_one₀ two_ne_zero
  have hquarters : ∀ s : Nat, ((4 * (s + 1) - 2 : Nat) : ℚ) = 2 * (2 * s + 1) := by
    intro s
    rw [show 4 * (s + 1) - 2 = 2 * (2 * s + 1) by omega]
    push_cast
    ring
  unfold low quarter boundary
  by_cases hzero : m / binade = 0
  · -- the first binade has the unit of the magnitudes below it
    have hm : m % binade = m := Nat.mod_eq_of_lt (Nat.lt_of_div_eq_zero (by decide) hzero)
    have hsig : x.significand = m + 1 := by
      unfold significand
      rw [h]
      rcases div_mod_succ m with ⟨-, hdiv, -⟩ | ⟨hlast, hdiv, hmod⟩
      · rw [hdiv, if_pos hzero]
      · rw [hdiv, if_neg (Nat.succ_ne_zero _), hmod, Nat.zero_add, ← hlast, hm]
    have hexp : x.exponent = -1075 - 1 + 2 := by
      unfold exponent
      rw [h]
      rcases div_mod_succ m with ⟨-, hdiv, -⟩ | ⟨-, hdiv, -⟩ <;> simp [hdiv, hzero]
    have hbelow : x.below = 2 := by
      rcases div_mod_succ m with ⟨-, hdiv, -⟩ | ⟨-, hdiv, -⟩ <;>
        simp [below, atPowerOfTwo, h, hdiv, hzero]
    rw [hbelow, hsig, hexp, if_pos hzero, add_sub_cancel_right, hhalf, hquarters]
    ring
  · rw [if_neg hzero]
    obtain ⟨-, hdiv, hmod⟩ | ⟨hlast, hdiv, hmod⟩ := div_mod_succ m
    · have hsig : x.significand = m % binade + binade + 1 := by
        simp only [significand, h, hdiv, hmod, hzero, if_false]
        omega
      have hexp : x.exponent = (m / binade : Nat) - 1076 - 1 + 2 := by
        simp only [exponent, h, hdiv, hzero, if_false]
        ring
      have hbelow : x.below = 2 := by simp [below, atPowerOfTwo, h, hmod]
      rw [hbelow, hsig, hexp, add_sub_cancel_right, hhalf, hquarters]
      ring
    · -- the unit doubles, and the lower boundary is half a unit closer
      have hsig : x.significand = binade := by simp [significand, h, hdiv, hmod]
      have hexp : x.exponent = (m / binade : Nat) - 1076 + 2 := by
        simp only [exponent, h, hdiv, Nat.succ_ne_zero, if_false]
        push_cast
        ring
      have hbelow : x.below = 1 := by
        have hpos : 0 < m / binade := Nat.pos_of_ne_zero hzero
        simp [below, atPowerOfTwo, h, hdiv, hmod, hpos]
      rw [hbelow, hsig, hexp, add_sub_cancel_right,
        show 4 * binade - 1 = 2 * (m % binade + binade) + 1 by omega]
      push_cast
      ring

/-! ## The order of values -/

/-- Greater magnitudes have greater values: a boundary is between them. -/
theorem value_lt_value {x y : Binary64} (h : x.magnitude < y.magnitude) : x.value < y.value := by
  obtain ⟨m, hm⟩ : ∃ m, y.magnitude = m + 1 := Nat.exists_eq_succ_of_ne_zero (by omega)
  calc x.value < x.high := x.value_lt_high
    _ = boundary x.magnitude := x.high_eq
    _ ≤ boundary m := boundary_strictMono.monotone (by omega)
    _ = y.low := (low_eq hm).symm
    _ < y.value := low_lt_value (by omega)

theorem value_lt_value_iff {x y : Binary64} : x.value < y.value ↔ x.magnitude < y.magnitude := by
  refine ⟨fun h => ?_, value_lt_value⟩
  by_contra hle
  rcases Nat.lt_or_eq_of_le (Nat.not_lt.mp hle) with hlt | heq
  · exact lt_asymm h (value_lt_value hlt)
  · have hvalue : x.value = y.value := by
      unfold value quarter significand exponent
      rw [heq]
    exact h.ne hvalue

/-! ## One magnitude for each number -/

/-- Even significands are those of even magnitudes. -/
theorem significand_mod_two (x : Binary64) : x.significand % 2 = x.magnitude % 2 := by
  unfold significand binade
  split <;> omega

theorem StandsFor.magnitude_le {x y : Binary64} {v : ℚ} (hx : x.StandsFor v) (hy : y.StandsFor v) :
    x.magnitude ≤ y.magnitude := by
  by_contra hlt
  obtain ⟨m, hm⟩ : ∃ m, x.magnitude = m + 1 := Nat.exists_eq_succ_of_ne_zero (by omega)
  have hle : boundary y.magnitude ≤ boundary m := boundary_strictMono.monotone (by omega)
  have hlow := hx.bounds.1
  have hhigh := hy.bounds.2
  rw [low_eq hm] at hlow
  rw [high_eq] at hhigh
  -- the number is the boundary between two neighbours
  have hboundary : boundary y.magnitude = boundary m := le_antisymm hle (hlow.trans hhigh)
  have hneighbour : y.magnitude = m := boundary_strictMono.injective hboundary
  -- which belongs to each of them only if it is even
  unfold StandsFor at hx hy
  rw [significand_mod_two, low_eq hm] at hx
  rw [significand_mod_two, high_eq] at hy
  split at hx
  · rw [if_neg (by omega)] at hy
    exact absurd hy.2 (not_lt.mpr (hle.trans hlow))
  · exact absurd hx.1 (not_lt.mpr (hhigh.trans hle))

/-- A number belongs to one magnitude at most. -/
theorem StandsFor.magnitude_eq {x y : Binary64} {v : ℚ} (hx : x.StandsFor v) (hy : y.StandsFor v) :
    x.magnitude = y.magnitude :=
  le_antisymm (hx.magnitude_le hy) (hy.magnitude_le hx)

end ExportDiff.Binary64
