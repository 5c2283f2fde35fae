/-
# ExportDiff.Proofs.Json.NumberText — the characters that numbers are written with

The text of a number is not empty and is made of digits, signs, a point and an `e` only. None of these
characters can follow a number inside a compact text, so the number ends where they do: one number
may be written with the beginning of another one, but in front of a comma, a bracket, a brace or the
end of the text it is read off in one way.
-/

import ExportDiff.Json.Number

namespace ExportDiff

/-- The characters that numbers are written with. -/
def isNumeric (c : Char) : Bool := c.isDigit || c = '-' || c = '+' || c = '.' || c = 'e'

/-- They are visible characters of ASCII. -/
theorem toNat_of_isNumeric {c : Char} (h : isNumeric c = true) :
    0x20 < c.toNat ∧ c.toNat < 0x7F := by
  simp only [isNumeric, Bool.or_eq_true, decide_eq_true_eq] at h
  rcases h with (((h | rfl) | rfl) | rfl) | rfl
  · simp only [Char.isDigit, Bool.and_eq_true, decide_eq_true_eq] at h
    have hlow : 0x30 ≤ c.toNat := h.1
    have hhigh : c.toNat ≤ 0x39 := h.2
    omega
  all_goals decide

/-! ## Decimal numbers -/

theorem isNumeric_of_mem_toDigits {n : Nat} {c : Char} (h : c ∈ Nat.toDigits 10 n) :
    isNumeric c = true := by
  have hdigit : c.isDigit = true := Nat.isDigit_of_mem_toDigits (by decide) (by decide) h
  simp [isNumeric, hdigit]

/-- A natural number starts with a digit. -/
theorem exists_digit_toDigits (n : Nat) :
    ∃ d ds, Nat.toDigits 10 n = d :: ds ∧ d.isDigit = true := by
  obtain ⟨d, ds, hds⟩ := List.exists_cons_of_ne_nil (Nat.toDigits_ne_nil : Nat.toDigits 10 n ≠ [])
  exact ⟨d, ds, hds,
    Nat.isDigit_of_mem_toDigits (by decide) (by decide) (hds ▸ List.mem_cons_self)⟩

theorem isNumeric_of_mem_replicate_zero {n : Nat} {c : Char} (h : c ∈ List.replicate n '0') :
    isNumeric c = true := by
  obtain rfl := List.eq_of_mem_replicate h
  decide

namespace Decimal

variable {digits : List Char} {e : Int} {c : Char}

theorem isNumeric_of_mem_positional (hdigits : ∀ d ∈ digits, isNumeric d = true)
    (h : c ∈ positional digits e) : isNumeric c = true := by
  unfold positional at h
  split at h
  · simp only [List.mem_cons, List.mem_append] at h
    rcases h with rfl | rfl | h | h
    · decide
    · decide
    · exact isNumeric_of_mem_replicate_zero h
    · exact hdigits c h
  · simp only [List.mem_cons, List.mem_append] at h
    rcases h with (h | h) | rfl | h
    · exact hdigits c (List.mem_of_mem_take h)
    · exact isNumeric_of_mem_replicate_zero h
    · decide
    · split at h
      · obtain rfl := List.mem_singleton.mp h
        decide
      · exact hdigits c (List.mem_of_mem_drop h)

theorem isNumeric_of_mem_scientific (hdigits : ∀ d ∈ digits, isNumeric d = true)
    (h : c ∈ scientific digits e) : isNumeric c = true := by
  unfold scientific at h
  simp only [List.mem_cons, List.mem_append] at h
  rcases h with (h | h) | rfl | rfl | h
  · exact hdigits c (List.mem_of_mem_take h)
  · split at h
    · simp at h
    · rcases List.mem_cons.mp h with rfl | h
      · decide
      · exact hdigits c (List.mem_of_mem_drop h)
  · decide
  · split <;> decide
  · exact isNumeric_of_mem_toDigits h

theorem isNumeric_of_mem_text {layout : Layout} {x : Decimal} (h : c ∈ x.text layout) :
    isNumeric c = true := by
  unfold text at h
  dsimp only at h
  split at h
  · exact isNumeric_of_mem_positional (fun d hd => isNumeric_of_mem_toDigits hd) h
  · exact isNumeric_of_mem_scientific (fun d hd => isNumeric_of_mem_toDigits hd) h

/-- Either layout has a character of its own: the point, or the `e`. -/
theorem text_ne_nil (layout : Layout) (x : Decimal) : x.text layout ≠ [] := by
  unfold text
  dsimp only
  split
  · unfold positional
    split <;> simp
  · simp [scientific]

end Decimal

/-! ## Numbers -/

namespace Json.Number

theorem isNumeric_of_mem_sign {negative : Prop} [Decidable negative] {c : Char}
    (h : c ∈ if negative then ['-'] else []) : isNumeric c = true := by
  split at h
  · obtain rfl := List.mem_singleton.mp h
    decide
  · simp at h

/-- Numbers are written with numeric characters only. -/
theorem isNumeric_of_mem_text {n : Number} {c : Char} (h : c ∈ n.text) : isNumeric c = true := by
  cases n with
  | integer n =>
    rcases List.mem_append.mp h with h | h
    · exact isNumeric_of_mem_sign h
    · exact isNumeric_of_mem_toDigits h
  | double x =>
    rcases List.mem_append.mp h with h | h
    · exact isNumeric_of_mem_sign h
    · exact Decimal.isNumeric_of_mem_text h

theorem text_ne_nil (n : Number) : n.text ≠ [] := by
  cases n with
  | integer n => exact List.append_ne_nil_of_right_ne_nil _ Nat.toDigits_ne_nil
  | double x => exact List.append_ne_nil_of_right_ne_nil _ (Decimal.text_ne_nil _ _)

end Json.Number

/-! ## Where a number ends -/

/-- The text does not go on with a character of a number. -/
def EndsNumber (cs : List Char) : Prop := ∀ c ∈ cs.head?, isNumeric c = false

theorem endsNumber_nil : EndsNumber [] := by
  intro c hc
  simp at hc

theorem endsNumber_cons {c : Char} {cs : List Char} (h : isNumeric c = false) :
    EndsNumber (c :: cs) := by
  intro d hd
  obtain rfl : c = d := by simpa using hd
  exact h

/-- In front of such a text, the numeric characters end where they were put. -/
theorem takeWhile_numeric_append {xs cs : List Char} (hxs : ∀ c ∈ xs, isNumeric c = true)
    (hcs : EndsNumber cs) : (xs ++ cs).takeWhile isNumeric = xs := by
  rw [List.takeWhile_append_of_pos hxs]
  cases cs with
  | nil => simp
  | cons c cs => simp [hcs c (by simp)]

/-- Numeric characters in front of such a text are taken off in one way. -/
theorem numeric_append_inj {xs ys cs ds : List Char} (hxs : ∀ c ∈ xs, isNumeric c = true)
    (hys : ∀ c ∈ ys, isNumeric c = true) (hcs : EndsNumber cs) (hds : EndsNumber ds)
    (h : xs ++ cs = ys ++ ds) : xs = ys ∧ cs = ds := by
  have hfront : xs = ys := by
    rw [← takeWhile_numeric_append hxs hcs, h, takeWhile_numeric_append hys hds]
  subst hfront
  exact ⟨rfl, List.append_cancel_left h⟩

/-- A number is read off the front of a text in one way. -/
theorem Json.Number.text_append_inj {m n : Json.Number} {cs ds : List Char} (hcs : EndsNumber cs)
    (hds : EndsNumber ds) (h : m.text ++ cs = n.text ++ ds) : m.text = n.text ∧ cs = ds :=
  numeric_append_inj (fun _ hc => isNumeric_of_mem_text hc) (fun _ hc => isNumeric_of_mem_text hc)
    hcs hds h

end ExportDiff
