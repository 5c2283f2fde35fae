/-
# ExportDiff.Json.Reader.Numeral — reading numbers

A number is an integer part without a superfluous leading zero, an optional fraction and an optional
exponent. Its digits are collected in a 64-bit significand. Once a further digit of the integer part
would not fit, that digit and all later ones of the integer part only raise the power of ten; the
fraction is then tried anew, and its digits are dropped from the first one that does not fit.

A number without fraction and exponent that fits 64 bits is an integer. Every other number, and `-0`,
is a double.
-/

import ExportDiff.Decimal.Rounded
import ExportDiff.Json.Number
import ExportDiff.Json.Reader.Basic

namespace ExportDiff.Json

/-! ## Collecting digits -/

/-- Appends digits to a significand for as long as it stays below `2 ^ 64`; also gives the digits
that were left over. -/
def absorb (significand : Nat) : List Char → Nat × List Char
  | [] => (significand, [])
  | d :: ds =>
    let longer := significand * 10 + digitValue d
    if longer ≤ 18446744073709551615 then absorb longer ds else (significand, d :: ds)

/-- The decimal number of an integer part: digits that do not fit count as a power of ten. -/
def wholePart (digits : List Char) : Decimal :=
  let (significand, left) := absorb 0 digits
  ⟨significand, left.length⟩

/-- Appends a fraction: each digit that fits lowers the power of ten, the others are dropped. -/
def withFraction (whole : Decimal) (digits : List Char) : Decimal :=
  let (significand, left) := absorb whole.digits digits
  ⟨significand, whole.exponent - (digits.length - left.length : Nat)⟩

/-- The value of an exponent, or the digits behind the one at which it passes 31 bits. -/
def exponentValue (value : Nat) : List Char → Except (List Char) Nat
  | [] => .ok value
  | d :: ds =>
    let longer := value * 10 + digitValue d
    if longer ≤ 2147483647 then exponentValue longer ds else .error ds

/-! ## The end of a number -/

/-- The double of a decimal number that ends before `rest`. -/
def finishDouble (negative : Bool) (x : Decimal) (rest : List Char) : Step Number :=
  match x.rounded? with
  | some y => .ok (.double (y.withSign negative), rest)
  | none => stopAfter .numberOutOfRange rest

/-- The number of an integer part that nothing follows. -/
def finishWhole (negative : Bool) (x : Decimal) (rest : List Char) : Step Number :=
  -- Zero behind a minus sign is no integer: as one it would lose its sign.
  if x.exponent = 0 ∧ ¬ (negative = true ∧ x.digits = 0) then
    match Number.ofInt? (if negative then -x.digits else x.digits) with
    | some n => .ok (n, rest)
    | none => finishDouble negative x rest
  else finishDouble negative x rest

/-! ## The parts of a number -/

/-- Reads the digits of an exponent. -/
def exponentDigits (negative : Bool) (x : Decimal) (below : Bool) : List Char → Step Number
  | [] => stop .endInValue []
  | c :: rest =>
    if c.isDigit then
      let digits := leadingDigits (c :: rest)
      let after := afterDigits (c :: rest)
      match exponentValue 0 digits with
      | .ok e => finishDouble negative ⟨x.digits, if below then x.exponent - e else x.exponent + e⟩ after
      | .error left =>
        -- No such exponent leaves anything but zero, or a number that is too large.
        if x.digits ≠ 0 ∧ below = false then stopAfter .numberOutOfRange (left ++ after)
        else .ok (.double (Binary64.zero.withSign negative), after)
    else stop .invalidNumber (c :: rest)

/-- Reads what follows the letter of an exponent. -/
def exponentPart (negative : Bool) (x : Decimal) : List Char → Step Number
  | '+' :: rest => exponentDigits negative x false rest
  | '-' :: rest => exponentDigits negative x true rest
  | rest => exponentDigits negative x false rest

/-- Reads what follows the point. -/
def fractionPart (negative : Bool) (whole : Decimal) (cs : List Char) : Step Number :=
  match leadingDigits cs with
  | [] => if cs = [] then stop .endInValue [] else stop .invalidNumber cs
  | d :: ds =>
    let x := withFraction whole (d :: ds)
    match afterDigits cs with
    | 'e' :: rest => exponentPart negative x rest
    | 'E' :: rest => exponentPart negative x rest
    | rest => finishDouble negative x rest

/-- Reads what follows the integer part. -/
def afterWhole (negative : Bool) (whole : Decimal) : List Char → Step Number
  | '.' :: rest => fractionPart negative whole rest
  | 'e' :: rest => exponentPart negative whole rest
  | 'E' :: rest => exponentPart negative whole rest
  | rest => finishWhole negative whole rest

/-- Reads a number behind its sign. -/
def numeral (negative : Bool) : List Char → Step Number
  | [] => stop .endInValue []
  | c :: rest =>
    if c = '0' then
      match rest with
      | d :: _ => if d.isDigit then stop .invalidNumber rest else afterWhole negative ⟨0, 0⟩ rest
      | [] => afterWhole negative ⟨0, 0⟩ []
    else if c.isDigit then
      afterWhole negative (wholePart (leadingDigits (c :: rest))) (afterDigits (c :: rest))
    else stop .invalidNumber (c :: rest)

/-! ## Progress -/

section Progress

variable {negative : Bool} {x : Decimal} {cs rest : List Char} {n : Number}

theorem rest_of_finishDouble (h : finishDouble negative x cs = .ok (n, rest)) : rest = cs := by
  unfold finishDouble at h
  split at h
  · exact (Prod.mk.inj (Except.ok.inj h)).2.symm
  · simp [stopAfter] at h

theorem rest_of_finishWhole (h : finishWhole negative x cs = .ok (n, rest)) : rest = cs := by
  unfold finishWhole at h
  split at h
  · split at h
    · exact (Prod.mk.inj (Except.ok.inj h)).2.symm
    · exact rest_of_finishDouble h
  · exact rest_of_finishDouble h

theorem length_le_of_exponentDigits {below : Bool}
    (h : exponentDigits negative x below cs = .ok (n, rest)) : rest.length ≤ cs.length := by
  unfold exponentDigits at h
  split at h
  · simp [stop] at h
  · next c cs =>
    split at h
    · dsimp only at h
      split at h
      · rw [rest_of_finishDouble h]
        exact length_afterDigits_le _
      · split at h
        · simp [stopAfter] at h
        · rw [← (Prod.mk.inj (Except.ok.inj h)).2]
          exact length_afterDigits_le _
    · simp [stop] at h

theorem length_le_of_exponentPart (h : exponentPart negative x cs = .ok (n, rest)) :
    rest.length ≤ cs.length := by
  unfold exponentPart at h
  split at h
  · exact Nat.le_succ_of_le (length_le_of_exponentDigits h)
  · exact Nat.le_succ_of_le (length_le_of_exponentDigits h)
  · exact length_le_of_exponentDigits h

theorem length_le_of_fractionPart (h : fractionPart negative x cs = .ok (n, rest)) :
    rest.length ≤ cs.length := by
  have hle := length_afterDigits_le cs
  unfold fractionPart at h
  split at h
  · split at h <;> simp [stop] at h
  · dsimp only at h
    split at h
    · next hafter =>
      rw [hafter, List.length_cons] at hle
      have := length_le_of_exponentPart h
      omega
    · next hafter =>
      rw [hafter, List.length_cons] at hle
      have := length_le_of_exponentPart h
      omega
    · rw [rest_of_finishDouble h]
      exact hle

theorem length_le_of_afterWhole (h : afterWhole negative x cs = .ok (n, rest)) :
    rest.length ≤ cs.length := by
  unfold afterWhole at h
  split at h
  · exact Nat.le_succ_of_le (length_le_of_fractionPart h)
  · exact Nat.le_succ_of_le (length_le_of_exponentPart h)
  · exact Nat.le_succ_of_le (length_le_of_exponentPart h)
  · exact Nat.le_of_eq (by rw [rest_of_finishWhole h])

theorem length_lt_of_numeral (h : numeral negative cs = .ok (n, rest)) :
    rest.length < cs.length := by
  unfold numeral at h
  split at h
  · simp [stop] at h
  · next c cs =>
    split at h
    · split at h
      · split at h
        · simp [stop] at h
        · exact Nat.lt_succ_of_le (length_le_of_afterWhole h)
      · exact Nat.lt_succ_of_le (length_le_of_afterWhole h)
    split at h
    · next hdigit =>
      refine Nat.lt_of_le_of_lt (length_le_of_afterWhole h) ?_
      rw [afterDigits, List.dropWhile_cons, if_pos hdigit]
      exact Nat.lt_succ_of_le (length_dropWhile_le _ _)
    · simp [stop] at h

end Progress

end ExportDiff.Json
