/-
# ExportDiff.Proofs.Decimal.Reading — the number that a decimal text stands for

A decimal text is digits with a point among them or none, and an `e` with an exponent or none. Whatever
the layout that chose between the two ways of writing, the text of a decimal stands for the decimal's
own number (`ofText_text`). So two decimals with one text are one number.
-/

import Mathlib.Data.List.TakeWhile
import ExportDiff.Decimal.Layout
import ExportDiff.Proofs.Decimal.Shortest

namespace ExportDiff.Decimal

/-! ## Reading a text -/

/-- The number that digits with or without a point stand for. -/
def ofDigits (cs : List Char) : ℚ :=
  let fraction := (cs.dropWhile (· ≠ '.')).drop 1
  Nat.ofDigitChars 10 (cs.takeWhile (· ≠ '.') ++ fraction) 0 / 10 ^ fraction.length

/-- The number that an exponent behind its sign stands for. -/
def ofExponent : List Char → ℤ
  | '-' :: digits => -Nat.ofDigitChars 10 digits 0
  | _ :: digits => Nat.ofDigitChars 10 digits 0
  | [] => 0

/-- The number that a decimal text stands for. -/
def ofText (cs : List Char) : ℚ :=
  ofDigits (cs.takeWhile (· ≠ 'e')) * 10 ^ ofExponent ((cs.dropWhile (· ≠ 'e')).drop 1)

section Splitting

variable {c : Char} {front rest : List Char}

theorem takeWhile_ne_append (h : c ∉ front) : (front ++ c :: rest).takeWhile (· ≠ c) = front := by
  rw [List.takeWhile_append_of_pos]
  · simp
  · intro d hd
    exact decide_eq_true fun heq => h (heq ▸ hd)

theorem dropWhile_ne_append (h : c ∉ front) :
    (front ++ c :: rest).dropWhile (· ≠ c) = c :: rest := by
  rw [List.dropWhile_append_of_pos]
  · simp
  · intro d hd
    exact decide_eq_true fun heq => h (heq ▸ hd)

theorem takeWhile_ne_of_not_mem (h : c ∉ front) : front.takeWhile (· ≠ c) = front := by
  rw [List.takeWhile_eq_self_iff]
  intro d hd
  exact decide_eq_true fun heq => h (heq ▸ hd)

theorem dropWhile_ne_of_not_mem (h : c ∉ front) : front.dropWhile (· ≠ c) = [] := by
  rw [List.dropWhile_eq_nil_iff]
  intro d hd
  exact decide_eq_true fun heq => h (heq ▸ hd)

theorem ofDigits_point (h : '.' ∉ front) :
    ofDigits (front ++ '.' :: rest) = Nat.ofDigitChars 10 (front ++ rest) 0 / 10 ^ rest.length := by
  unfold ofDigits
  rw [takeWhile_ne_append h, dropWhile_ne_append h]
  rfl

theorem ofDigits_whole (h : '.' ∉ front) : ofDigits front = Nat.ofDigitChars 10 front 0 := by
  unfold ofDigits
  rw [takeWhile_ne_of_not_mem h, dropWhile_ne_of_not_mem h]
  simp

theorem ofText_exponent (h : 'e' ∉ front) :
    ofText (front ++ 'e' :: rest) = ofDigits front * 10 ^ ofExponent rest := by
  unfold ofText
  rw [takeWhile_ne_append h, dropWhile_ne_append h]
  rfl

theorem ofText_plain (h : 'e' ∉ front) : ofText front = ofDigits front := by
  unfold ofText
  rw [takeWhile_ne_of_not_mem h, dropWhile_ne_of_not_mem h]
  simp [ofExponent]

end Splitting

/-! ## Reading what was written -/

section Layouts

variable {digits : List Char} {e : ℤ}

theorem not_mem_of_digits {c : Char} (hc : c.isDigit = false)
    (hdigits : ∀ d ∈ digits, d.isDigit = true) : c ∉ digits := by
  intro hmem
  rw [hdigits c hmem] at hc
  cases hc

theorem isDigit_of_mem_zeros {n : Nat} : ∀ d ∈ List.replicate n '0', d.isDigit = true := by
  intro d hd
  rw [List.eq_of_mem_replicate hd]
  rfl

/-- Digits with a point stand for the digits, as so many places behind it. -/
theorem ofText_point {whole fraction : List Char} (hwhole : ∀ d ∈ whole, d.isDigit = true)
    (hfraction : ∀ d ∈ fraction, d.isDigit = true) :
    ofText (whole ++ '.' :: fraction)
      = Nat.ofDigitChars 10 (whole ++ fraction) 0 / 10 ^ fraction.length := by
  have he : 'e' ∉ whole ++ '.' :: fraction := by
    have he : 'e'.isDigit = false := rfl
    simp [not_mem_of_digits he hwhole, not_mem_of_digits he hfraction]
  rw [ofText_plain he, ofDigits_point (not_mem_of_digits rfl hwhole)]

/-- Zeros in front of digits do not count. -/
theorem ofDigitChars_zeros_append (n : Nat) (digits : List Char) :
    Nat.ofDigitChars 10 (List.replicate n '0' ++ digits) 0 = Nat.ofDigitChars 10 digits 0 := by
  rw [Nat.ofDigitChars_append, Nat.ofDigitChars_replicate_zero, Nat.mul_zero]

/-- Zeros behind digits are places. -/
theorem ofDigitChars_append_zeros (n : Nat) (digits : List Char) :
    Nat.ofDigitChars 10 (digits ++ List.replicate n '0') 0
      = 10 ^ n * Nat.ofDigitChars 10 digits 0 := by
  rw [Nat.ofDigitChars_append, Nat.ofDigitChars_replicate_zero]

/-- Digits written positionally stand for the digits, the first one at its place. -/
theorem ofText_positional (hdigits : ∀ d ∈ digits, d.isDigit = true) :
    ofText (positional digits e) = Nat.ofDigitChars 10 digits 0 * 10 ^ (e + 1 - digits.length) := by
  unfold positional
  split
  · -- all digits are behind the point, and zeros before them
    next he =>
    have hfraction : ∀ d ∈ List.replicate (-e - 1).toNat '0' ++ digits, d.isDigit = true :=
      List.forall_mem_append.mpr ⟨isDigit_of_mem_zeros, hdigits⟩
    have hpoint := @ofText_point (List.replicate 1 '0') _ isDigit_of_mem_zeros hfraction
    rw [ofDigitChars_zeros_append, ofDigitChars_zeros_append] at hpoint
    refine hpoint.trans ?_
    rw [div_eq_mul_inv, ← zpow_natCast, ← zpow_neg, List.length_append, List.length_replicate]
    congr 2
    omega
  dsimp only
  rcases Nat.lt_or_ge (e.toNat + 1) digits.length with hlt | hge
  · -- the point is among the digits
    have hwhole : ∀ d ∈ digits.take (e.toNat + 1), d.isDigit = true :=
      fun d hd => hdigits d (List.mem_of_mem_take hd)
    have hfraction : ∀ d ∈ digits.drop (e.toNat + 1), d.isDigit = true :=
      fun d hd => hdigits d (List.mem_of_mem_drop hd)
    have hne : digits.drop (e.toNat + 1) ≠ [] := by
      rw [Ne, List.drop_eq_nil_iff]
      omega
    rw [if_neg hne, List.length_take_of_le hlt.le, Nat.sub_self, List.replicate_zero,
      List.append_nil, ofText_point hwhole hfraction, List.take_append_drop, div_eq_mul_inv,
      ← zpow_natCast, ← zpow_neg, List.length_drop]
    congr 2
    omega
  · -- all digits are before the point, and zeros behind them
    have hwhole : ∀ d ∈ digits ++ List.replicate (e.toNat + 1 - digits.length) '0',
        d.isDigit = true := List.forall_mem_append.mpr ⟨hdigits, isDigit_of_mem_zeros⟩
    have hpoint := @ofText_point _ (List.replicate 1 '0') hwhole isDigit_of_mem_zeros
    rw [List.append_assoc digits _ (List.replicate 1 '0'), List.replicate_append_replicate,
      ofDigitChars_append_zeros] at hpoint
    rw [if_pos (List.drop_eq_nil_iff.mpr hge), List.take_of_length_le hge]
    refine hpoint.trans ?_
    rw [List.length_replicate, Nat.cast_mul, Nat.cast_pow, pow_succ, pow_one, Nat.cast_ofNat,
      mul_right_comm, mul_div_cancel_right₀ _ (by norm_num), mul_comm, ← zpow_natCast]
    congr 2
    omega

/-- The sign and the digits of an exponent stand for it. -/
theorem ofExponent_toDigits (e : ℤ) :
    ofExponent ((if e < 0 then '-' else '+') :: Nat.toDigits 10 e.natAbs) = e := by
  split
  · show -(Nat.ofDigitChars 10 (Nat.toDigits 10 e.natAbs) 0 : ℤ) = e
    rw [Nat.ofDigitChars_ten_toDigits]
    omega
  · show (Nat.ofDigitChars 10 (Nat.toDigits 10 e.natAbs) 0 : ℤ) = e
    rw [Nat.ofDigitChars_ten_toDigits]
    omega

/-- Digits written with an exponent stand for the same. -/
theorem ofText_scientific (hdigits : ∀ d ∈ digits, d.isDigit = true) (hne : digits ≠ []) :
    ofText (scientific digits e) = Nat.ofDigitChars 10 digits 0 * 10 ^ (e + 1 - digits.length) := by
  obtain ⟨d, ds, rfl⟩ := List.exists_cons_of_ne_nil hne
  obtain ⟨hd, hds⟩ := List.forall_mem_cons.mp hdigits
  have hpoint : '.' ∉ [d] := not_mem_of_digits rfl (by simpa using hd)
  have hfront : 'e' ∉ [d] ++ (if ds = [] then [] else '.' :: ds) := by
    have he : 'e' ∉ d :: ds := not_mem_of_digits rfl hdigits
    split
    · next hnil => rwa [hnil] at he
    · simpa using he
  have hvalue : ofDigits ([d] ++ (if ds = [] then [] else '.' :: ds))
      = Nat.ofDigitChars 10 (d :: ds) 0 / 10 ^ ds.length := by
    split
    · next hnil =>
      subst hnil
      rw [List.append_nil, ofDigits_whole hpoint]
      simp
    · exact ofDigits_point hpoint
  show ofText (([d] ++ (if ds = [] then [] else '.' :: ds)) ++ 'e' :: _) = _
  rw [ofText_exponent hfront, ofExponent_toDigits, hvalue, List.length_cons, div_mul_eq_mul_div,
    mul_div_assoc, ← zpow_natCast, ← zpow_sub₀ (by norm_num)]
  congr 2
  push_cast
  ring

/-- The text of a decimal stands for its number. -/
theorem ofText_text (layout : Layout) (x : Decimal) : ofText (x.text layout) = x.value := by
  have hdigits : ∀ d ∈ Nat.toDigits 10 x.digits, d.isDigit = true :=
    fun d hd => Nat.isDigit_of_mem_toDigits (by decide) (by decide) hd
  unfold text value
  dsimp only
  split
  · rw [ofText_positional hdigits, Nat.ofDigitChars_ten_toDigits]
    congr 2
    omega
  · rw [ofText_scientific hdigits Nat.toDigits_ne_nil, Nat.ofDigitChars_ten_toDigits]
    congr 2
    omega

end Layouts

end ExportDiff.Decimal
