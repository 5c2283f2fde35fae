/-
# ExportDiff.Proofs.Record.Identity — no two records have one key

No two numbers have one text: an integer is written with digits alone, a double always with a point or
an exponent, and the text of a double stands for a number that no other magnitude stands for. So
values that are alike are equal, and records with one key are one record (`Record.key_injective`).
-/

import ExportDiff.Proofs.Decimal.Reading
import ExportDiff.Proofs.Record.Content

namespace ExportDiff

/-! ## Texts of numbers -/

namespace Decimal

/-- The text of a decimal starts with a digit. -/
theorem exists_digit_text (layout : Layout) (x : Decimal) :
    ∃ d ds, x.text layout = d :: ds ∧ d.isDigit = true := by
  obtain ⟨d, ds, hds, hd⟩ := exists_digit_toDigits x.digits
  unfold text
  dsimp only
  split
  · unfold positional
    split
    · exact ⟨'0', _, rfl, rfl⟩
    · rw [hds]
      exact ⟨d, _, rfl, hd⟩
  · unfold scientific
    rw [hds]
    exact ⟨d, _, rfl, hd⟩

/-- A decimal is written with a point or with an exponent. -/
theorem point_or_exponent_mem_text (layout : Layout) (x : Decimal) :
    '.' ∈ x.text layout ∨ 'e' ∈ x.text layout := by
  unfold text
  dsimp only
  split
  · left
    unfold positional
    split <;> simp
  · right
    simp [scientific]

end Decimal

namespace Json.Number

/-- A sign is told from the digits behind it. -/
theorem sign_append_inj {p q : Prop} [Decidable p] [Decidable q] {c d : Char} {cs ds : List Char}
    (hc : c.isDigit = true) (hd : d.isDigit = true)
    (h : (if p then ['-'] else []) ++ c :: cs = (if q then ['-'] else []) ++ d :: ds) :
    (p ↔ q) ∧ c :: cs = d :: ds := by
  have hsign : ∀ {c : Char}, c.isDigit = true → c ≠ '-' := by
    rintro c hc rfl
    cases hc
  by_cases hp : p
  · by_cases hq : q
    · simpa [hp, hq] using h
    · rw [if_pos hp, if_neg hq] at h
      exact absurd (List.cons.inj h).1.symm (hsign hd)
  · by_cases hq : q
    · rw [if_neg hp, if_pos hq] at h
      exact absurd (List.cons.inj h).1 (hsign hc)
    · simpa [hp, hq] using h

theorem text_integer {n : Int} {least greatest} : (integer n least greatest).text
    = (if n < 0 then ['-'] else []) ++ Nat.toDigits 10 n.natAbs := rfl

theorem text_double (x : Binary64) : (double x).text
    = (if x.negative then ['-'] else []) ++ x.shortest.text layout := rfl

/-- An integer is written with a sign and digits. -/
theorem mem_text_integer {n : Int} {least greatest} {c : Char}
    (h : c ∈ (integer n least greatest).text) : c = '-' ∨ c.isDigit = true := by
  rcases List.mem_append.mp h with h | h
  · left
    split at h
    · exact List.mem_singleton.mp h
    · cases h
  · right
    exact Nat.isDigit_of_mem_toDigits (by decide) (by decide) h

/-- No integer is written as a double is. -/
theorem text_integer_ne_text_double {n : Int} {least greatest} (x : Binary64) :
    (integer n least greatest).text ≠ (double x).text := by
  intro h
  have hmem : '.' ∈ (double x).text ∨ 'e' ∈ (double x).text :=
    (x.shortest.point_or_exponent_mem_text layout).imp (List.mem_append_right _)
      (List.mem_append_right _)
  rw [← h] at hmem
  rcases hmem with hmem | hmem
  · exact absurd (mem_text_integer hmem) (by decide)
  · exact absurd (mem_text_integer hmem) (by decide)

theorem integer_text_inj {m n : Int} {least greatest least' greatest'}
    (h : (integer m least greatest).text = (integer n least' greatest').text) : m = n := by
  obtain ⟨c, cs, hcs, hc⟩ := exists_digit_toDigits m.natAbs
  obtain ⟨d, ds, hds, hd⟩ := exists_digit_toDigits n.natAbs
  rw [text_integer, text_integer, hcs, hds] at h
  obtain ⟨hsign, hdigits⟩ := sign_append_inj hc hd h
  rw [← hcs, ← hds] at hdigits
  have hvalue := congrArg (fun digits => Nat.ofDigitChars 10 digits 0) hdigits
  simp only [Nat.ofDigitChars_ten_toDigits] at hvalue
  omega

theorem double_text_inj {x y : Binary64} (h : (double x).text = (double y).text) : x = y := by
  obtain ⟨c, cs, hcs, hc⟩ := x.shortest.exists_digit_text layout
  obtain ⟨d, ds, hds, hd⟩ := y.shortest.exists_digit_text layout
  rw [text_double, text_double, hcs, hds] at h
  obtain ⟨hsign, hdigits⟩ := sign_append_inj hc hd h
  rw [← hcs, ← hds] at hdigits
  have hvalue := congrArg Decimal.ofText hdigits
  rw [Decimal.ofText_text, Decimal.ofText_text] at hvalue
  have hmagnitude := Binary64.magnitude_eq_of_shortest hvalue
  have hnegative : x.negative = y.negative := Bool.eq_iff_iff.mpr hsign
  cases x
  cases y
  cases hmagnitude
  cases hnegative
  rfl

/-- No two numbers have one text. -/
theorem text_injective : Function.Injective text := by
  intro m n h
  cases m with
  | integer m =>
    cases n with
    | integer n =>
      obtain rfl := integer_text_inj h
      rfl
    | double y => exact absurd h (text_integer_ne_text_double y)
  | double x =>
    cases n with
    | integer n => exact absurd h.symm (text_integer_ne_text_double x)
    | double y => rw [double_text_inj h]

end Json.Number

/-! ## Values and records -/

namespace Json

mutual

/-- Values that are alike are equal. -/
theorem Alike.eq (x y : Json) (h : Alike x y) : x = y := by
  cases x with
  | null =>
    cases y with
    | null => rfl
    | _ => exact h.elim
  | bool b =>
    cases y with
    | bool b' => exact congrArg bool h
    | _ => exact h.elim
  | num m =>
    cases y with
    | num n => exact congrArg num (Number.text_injective h)
    | _ => exact h.elim
  | str s =>
    cases y with
    | str t => exact congrArg str h
    | _ => exact h.elim
  | arr xs =>
    cases y with
    | arr ys => exact congrArg arr (AlikeItems.eq xs ys h)
    | _ => exact h.elim
  | obj ms =>
    cases y with
    | obj ns => exact congrArg obj (AlikeMembers.eq ms ns h)
    | _ => exact h.elim
termination_by structural x

theorem AlikeItems.eq (xs ys : List Json) (h : AlikeItems xs ys) : xs = ys := by
  cases xs with
  | nil =>
    cases ys with
    | nil => rfl
    | cons y ys => exact h.elim
  | cons x xs =>
    cases ys with
    | nil => exact h.elim
    | cons y ys => rw [Alike.eq x y h.1, AlikeItems.eq xs ys h.2]
termination_by structural xs

theorem AlikeMembers.eq (ms ns : List (String × Json)) (h : AlikeMembers ms ns) : ms = ns := by
  cases ms with
  | nil =>
    cases ns with
    | nil => rfl
    | cons n ns => exact h.elim
  | cons m ms =>
    cases ns with
    | nil => exact h.elim
    | cons n ns =>
      obtain ⟨a, x⟩ := m
      obtain ⟨b, y⟩ := n
      obtain ⟨hname, hvalue, hrest⟩ : a = b ∧ Alike x y ∧ AlikeMembers ms ns := h
      rw [hname, Alike.eq x y hvalue, AlikeMembers.eq ms ns hrest]
termination_by structural ms

end

end Json

/-- No two records have one key. -/
theorem Record.key_injective : Function.Injective Record.key := by
  intro r s h
  have hmembers : Json.AlikeMembers r.fields s.fields :=
    (Json.alikeMembers_iff_find? r.sorted s.sorted).mpr (key_eq_iff_alike.mp h)
  exact Record.ext (Json.AlikeMembers.eq _ _ hmembers)

end ExportDiff
