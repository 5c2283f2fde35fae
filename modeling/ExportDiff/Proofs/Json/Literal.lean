/-
# ExportDiff.Proofs.Json.Literal — a literal of printable ASCII reads back

Reading undoes `quoteAscii`: what stands between the quotation marks gives the string it was written
from, and the text behind the literal is left over. So a literal is never the beginning of another
one, and equal literals are literals of equal strings, whatever escapes they are made of.
-/

import ExportDiff.Json.Quote
import ExportDiff.Json.Reader.Literal

namespace ExportDiff.Json

/-! ## Units -/

/-- A digit that was written is read with its own value. -/
theorem hexValue?_hexDigit (n : Nat) : Text.hexValue? (hexDigit n) = some (n % 16) := by
  have hall : ∀ i : Fin 16, Text.hexValue? (Nat.digitChar i.val) = some i.val := by decide
  exact hall ⟨n % 16, Nat.mod_lt n (by decide)⟩

/-- The four digits of a unit are read as the unit. -/
theorem hexUnit_digits {u : Nat} (hu : u < 0x10000) (rest : List Char) :
    hexUnit (hexDigit (u / 4096) :: hexDigit (u / 256) :: hexDigit (u / 16) :: hexDigit u :: rest)
      = .ok (u, rest) := by
  have hvalue :
      ((u / 4096 % 16 * 16 + u / 256 % 16) * 16 + u / 16 % 16) * 16 + u % 16 = u := by omega
  have hdigits : hexUnit? (hexDigit (u / 4096) :: hexDigit (u / 256) :: hexDigit (u / 16)
      :: hexDigit u :: rest) = some (u, rest) := by
    simp only [hexUnit?, hexValue?_hexDigit, Option.pure_def, Option.bind_eq_bind,
      Option.bind_some, hvalue]
  unfold hexUnit
  rw [hdigits]

/-- A code point is no surrogate. -/
theorem toNat_lt_or_gt_surrogates (c : Char) :
    c.toNat < 0xD800 ∨ 0xDFFF < c.toNat ∧ c.toNat < 0x110000 := by
  rcases c.valid with h | h
  · exact Or.inl h
  · exact Or.inr h

/-! ## Escapes -/

/-- A unit that is a whole character is read as this character. -/
theorem unicodeChar_basic {c : Char} (hc : c.toNat < 0x10000) (rest : List Char) :
    unicodeChar (hexDigit (c.toNat / 4096) :: hexDigit (c.toNat / 256) :: hexDigit (c.toNat / 16)
      :: hexDigit c.toNat :: rest) = .ok (c, rest) := by
  have hsplit := toNat_lt_or_gt_surrogates c
  have hlow : isLowSurrogate c.toNat = false := by
    simp only [isLowSurrogate, Bool.and_eq_false_iff, decide_eq_false_iff_not]
    omega
  have hhigh : isHighSurrogate c.toNat = false := by
    simp only [isHighSurrogate, Bool.and_eq_false_iff, decide_eq_false_iff_not]
    omega
  unfold unicodeChar
  rw [hexUnit_digits hc]
  simp only [hlow, hhigh, Bool.false_eq_true, if_false, Char.ofNat_toNat]

/-- A surrogate pair is read as the character that it stands for. -/
theorem unicodeChar_pair {c : Char} {high low : Nat} (hhigh : isHighSurrogate high = true)
    (hlow : isLowSurrogate low = true)
    (hc : 0x10000 + (high - 0xD800) * 0x400 + (low - 0xDC00) = c.toNat) (rest : List Char) :
    unicodeChar (hexDigit (high / 4096) :: hexDigit (high / 256) :: hexDigit (high / 16)
      :: hexDigit high :: (unitEscape low ++ rest)) = .ok (c, rest) := by
  have hhigh' : 0xD800 ≤ high ∧ high ≤ 0xDBFF := by simpa [isHighSurrogate] using hhigh
  have hlow' : 0xDC00 ≤ low ∧ low ≤ 0xDFFF := by simpa [isLowSurrogate] using hlow
  have hnot : isLowSurrogate high = false := by
    simp only [isLowSurrogate, Bool.and_eq_false_iff, decide_eq_false_iff_not]
    omega
  have hpair : pairedChar high low = c := by
    unfold pairedChar
    rw [hc, Char.ofNat_toNat]
  have hread : lowSurrogate high (unitEscape low ++ rest) = .ok (c, rest) := by
    simp only [unitEscape, List.cons_append, List.nil_append, lowSurrogate, ne_eq,
      not_true_eq_false, if_false]
    rw [hexUnit_digits (by omega)]
    simp only [hlow, if_true, hpair]
  unfold unicodeChar
  rw [hexUnit_digits (by omega)]
  simp only [hnot, hhigh, Bool.false_eq_true, if_false, if_true, hread]

/-- The units of a character outside the basic plane are a surrogate pair that stands for it. -/
theorem units_pair {c : Char} (hc : 0x10000 ≤ c.toNat) :
    ∃ high low, units c = [high, low] ∧ isHighSurrogate high = true ∧ isLowSurrogate low = true
      ∧ 0x10000 + (high - 0xD800) * 0x400 + (low - 0xDC00) = c.toNat := by
  have hsplit := toNat_lt_or_gt_surrogates c
  refine ⟨0xD800 + (c.toNat - 0x10000) / 0x400, 0xDC00 + (c.toNat - 0x10000) % 0x400, ?_, ?_, ?_, ?_⟩
  · unfold units
    rw [if_neg (Nat.not_lt.mpr hc)]
  · simp only [isHighSurrogate, Bool.and_eq_true, decide_eq_true_eq]
    omega
  · simp only [isLowSurrogate, Bool.and_eq_true, decide_eq_true_eq]
    omega
  · omega

/-- The escape of a character's units is a backslash and what is read as the character. -/
theorem unicodeEscape_reads (c : Char) (rest : List Char) :
    ∃ cs, unicodeEscape c ++ rest = '\\' :: cs ∧ escapedChar cs = .ok (c, rest) := by
  have hletter : escapedBy? 'u' = none := by decide
  -- one unit inside the basic plane, a surrogate pair outside it
  by_cases hc : c.toNat < 0x10000
  · have hunits : units c = [c.toNat] := if_pos hc
    refine ⟨'u' :: hexDigit (c.toNat / 4096) :: hexDigit (c.toNat / 256) :: hexDigit (c.toNat / 16)
      :: hexDigit c.toNat :: rest, ?_, ?_⟩
    · simp [unicodeEscape, hunits, unitEscape]
    · simp only [escapedChar, hletter, if_true]
      exact unicodeChar_basic hc rest
  · obtain ⟨high, low, hunits, hhigh, hlow, hvalue⟩ := units_pair (Nat.le_of_not_lt hc)
    refine ⟨'u' :: hexDigit (high / 4096) :: hexDigit (high / 256) :: hexDigit (high / 16)
      :: hexDigit high :: (unitEscape low ++ rest), ?_, ?_⟩
    · simp [unicodeEscape, hunits, unitEscape]
    · simp only [escapedChar, hletter, if_true]
      exact unicodeChar_pair hhigh hlow hvalue rest

/-- Short escapes are read by the letter that they are written with. -/
theorem escapedBy?_of_shortEscape? {c letter : Char} (h : shortEscape? c = some letter) :
    escapedBy? letter = some c := by
  unfold shortEscape? at h
  -- every branch but the last one is about one character and its letter
  repeat' split at h
  all_goals first
    | (obtain rfl := Option.some.inj h; subst_vars; decide)
    | simp at h

/-- A character that is written as it is has no special meaning in a literal. -/
theorem plain_of_shortEscape?_eq_none {c : Char} (h : shortEscape? c = none) :
    c ≠ '"' ∧ c ≠ '\\' := by
  constructor
  · rintro rfl
    simp [shortEscape?] at h
  · rintro rfl
    simp [shortEscape?] at h

/-! ## Literals -/

theorem literalTail_quote (read rest : List Char) :
    literalTail read ('"' :: rest) = .ok (String.ofList read.reverse, rest) := by
  rw [literalTail]
  simp

theorem literalTail_backslash {read cs rest : List Char} {c : Char}
    (h : escapedChar cs = .ok (c, rest)) :
    literalTail read ('\\' :: cs) = literalTail (c :: read) rest := by
  have hslash : ('\\' : Char) ≠ '"' := by decide
  rw [literalTail]
  simp only [hslash, if_false, if_true]
  split
  · next fault heq => rw [h] at heq; simp at heq
  · next d rest₁ heq =>
    rw [h] at heq
    obtain ⟨rfl, rfl⟩ := Prod.mk.inj (Except.ok.inj heq)
    rfl

/-- One written character is read as itself. -/
theorem literalTail_escapeAscii (read : List Char) (c : Char) (rest : List Char) :
    literalTail read (escapeAscii c ++ rest) = literalTail (c :: read) rest := by
  unfold escapeAscii
  split
  · next letter hshort =>
    refine literalTail_backslash ?_
    show escapedChar (letter :: rest) = _
    simp only [escapedChar, escapedBy?_of_shortEscape? hshort]
  · next hshort =>
    -- without a short escape, a character is no quotation mark and no backslash
    obtain ⟨hquote, hslash⟩ := plain_of_shortEscape?_eq_none hshort
    split
    · next hplain =>
      have hprintable : ¬ c.toNat < 0x20 := Nat.not_lt.mpr hplain.1
      show literalTail read (c :: rest) = _
      rw [literalTail]
      simp only [hquote, hslash, hprintable, if_false]
    · obtain ⟨cs, hcs, hread⟩ := unicodeEscape_reads c rest
      rw [hcs]
      exact literalTail_backslash hread

/-- Reading from inside a literal, the characters before being in `read`, last first. -/
theorem literalTail_flatMap_escapeAscii (read cs rest : List Char) :
    literalTail read (cs.flatMap escapeAscii ++ '"' :: rest)
      = .ok (String.ofList (read.reverse ++ cs), rest) := by
  induction cs generalizing read with
  | nil => simpa using literalTail_quote read rest
  | cons c cs ih =>
    rw [List.flatMap_cons, List.append_assoc, literalTail_escapeAscii, ih]
    simp

/-- A literal reads back, and the text behind it is left over. -/
theorem literalTail_quoteAscii (s : String) (rest : List Char) :
    literalTail [] (s.toList.flatMap escapeAscii ++ '"' :: rest) = .ok (s, rest) := by
  rw [literalTail_flatMap_escapeAscii]
  simp

/-- A literal determines its string and where it ends. -/
theorem quoteAscii_append_inj {s t : String} {cs ds : List Char}
    (h : quoteAscii s ++ cs = quoteAscii t ++ ds) : s = t ∧ cs = ds := by
  have hinner : s.toList.flatMap escapeAscii ++ '"' :: cs
      = t.toList.flatMap escapeAscii ++ '"' :: ds := by
    simpa [quoteAscii] using h
  have hread := literalTail_quoteAscii s cs
  rw [hinner, literalTail_quoteAscii] at hread
  obtain ⟨rfl, rfl⟩ := Prod.mk.inj (Except.ok.inj hread)
  exact ⟨rfl, rfl⟩

end ExportDiff.Json
