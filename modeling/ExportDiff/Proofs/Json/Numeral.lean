/-
# ExportDiff.Proofs.Json.Numeral — a number is read alike wherever it stands

A step is local if what it finds depends on the front that it takes off the text, and not on what
stands behind it, as long as that is something that may stand behind a value: nothing, a comma, or a
closing bracket or brace. Reading a number is local, part by part. So a number that reads back from
its own text (`Rereads`) reads back inside any array or object too.

Every integer reads back: its digits fit the significand one by one, since the whole number does. A
double reads back or does not, depending on the two roundings that reading goes through.
-/

import Mathlib.Data.List.TakeWhile
import ExportDiff.Json.Reader.Value
import ExportDiff.Proofs.Json.NumberText

namespace ExportDiff.Json

/-! ## What stands behind a value -/

/-- A text that may stand behind a value. -/
def FollowsValue (cs : List Char) : Prop := ∀ c ∈ cs.head?, c = ',' ∨ c = ']' ∨ c = '\x7d'

theorem followsValue_nil : FollowsValue [] := by
  intro c hc
  simp at hc

theorem followsValue_cons {c : Char} {cs : List Char} (h : c = ',' ∨ c = ']' ∨ c = '\x7d') :
    FollowsValue (c :: cs) := by
  intro d hd
  obtain rfl : c = d := by simpa using hd
  exact h

/-- None of the characters that a number may go on with stands behind a value. -/
theorem FollowsValue.ends {c : Char} {cs : List Char} (h : FollowsValue (c :: cs)) :
    c.isDigit = false ∧ c ≠ '.' ∧ c ≠ 'e' ∧ c ≠ 'E' := by
  rcases h c rfl with rfl | rfl | rfl <;> decide

/-! ## Digits -/

/-- The text does not go on with a digit. -/
def EndsDigits (cs : List Char) : Prop := ∀ c ∈ cs.head?, c.isDigit = false

theorem FollowsValue.endsDigits {cs : List Char} (h : FollowsValue cs) : EndsDigits cs := by
  intro c hc
  obtain ⟨rest, rfl⟩ := List.head?_eq_some_iff.mp hc
  exact h.ends.1

theorem endsDigits_cons {c : Char} {cs : List Char} (h : c.isDigit = false) :
    EndsDigits (c :: cs) := by
  intro d hd
  obtain rfl : c = d := by simpa using hd
  exact h

theorem leadingDigits_append {digits cs : List Char} (hdigits : ∀ d ∈ digits, d.isDigit = true)
    (hcs : EndsDigits cs) : leadingDigits (digits ++ cs) = digits := by
  unfold leadingDigits
  rw [List.takeWhile_append_of_pos hdigits]
  cases cs with
  | nil => simp
  | cons c cs => simp [hcs c rfl]

theorem afterDigits_append {digits cs : List Char} (hdigits : ∀ d ∈ digits, d.isDigit = true)
    (hcs : EndsDigits cs) : afterDigits (digits ++ cs) = cs := by
  unfold afterDigits
  rw [List.dropWhile_append_of_pos hdigits]
  cases cs with
  | nil => simp
  | cons c cs => simp [hcs c rfl]

/-- A text is its digits and what goes on without one. -/
theorem exists_digits_append (cs : List Char) :
    ∃ digits rest, cs = digits ++ rest ∧ (∀ d ∈ digits, d.isDigit = true) ∧ EndsDigits rest := by
  refine ⟨leadingDigits cs, afterDigits cs, (leadingDigits_append_afterDigits cs).symm,
    fun d hd => List.mem_takeWhile_imp hd, ?_⟩
  intro c hc
  have hhead := List.head?_dropWhile_not Char.isDigit cs
  rw [show (cs.dropWhile Char.isDigit).head? = some c from hc] at hhead
  simpa using hhead

/-! ## Finishing a number -/

section Finish

variable {negative : Bool} {x : Decimal} {cs rest : List Char} {n : Number}

/-- Finishing a number does not look at what stands behind it. -/
theorem finishDouble_of_ok (h : finishDouble negative x cs = .ok (n, rest)) (tail : List Char) :
    finishDouble negative x tail = .ok (n, tail) := by
  unfold finishDouble at h ⊢
  split at h
  · next y hy =>
    obtain ⟨rfl, -⟩ := Prod.mk.inj (Except.ok.inj h)
    rfl
  · simp [stopAfter] at h

theorem finishWhole_of_ok (h : finishWhole negative x cs = .ok (n, rest)) (tail : List Char) :
    finishWhole negative x tail = .ok (n, tail) := by
  unfold finishWhole at h ⊢
  split at h
  · next hexact =>
    rw [if_pos hexact]
    split at h
    · next m hm =>
      obtain ⟨rfl, -⟩ := Prod.mk.inj (Except.ok.inj h)
      rfl
    · exact finishDouble_of_ok h tail
  · next hexact =>
    rw [if_neg hexact]
    exact finishDouble_of_ok h tail

end Finish

/-! ## Local steps -/

/-- What a step finds depends only on the front that it takes off the text. -/
def Local {α : Type} (step : List Char → Step α) : Prop :=
  ∀ {cs rest : List Char} {x : α}, step cs = .ok (x, rest) →
    ∃ front, cs = front ++ rest ∧ ∀ tail, FollowsValue tail → step (front ++ tail) = .ok (x, tail)

/-- A local step that fails at the end of the text takes at least one character. -/
theorem Local.exists_cons {α : Type} {step : List Char → Step α} (hlocal : Local step)
    (hnil : ∀ found, step [] ≠ .ok found) {c : Char} {cs rest : List Char} {x : α}
    (h : step (c :: cs) = .ok (x, rest)) :
    ∃ front, cs = front ++ rest ∧
      ∀ tail, FollowsValue tail → step (c :: front ++ tail) = .ok (x, tail) := by
  obtain ⟨front, hfront, htail⟩ := hlocal h
  cases front with
  | nil => exact absurd (htail [] followsValue_nil) (hnil _)
  | cons d front =>
    obtain ⟨rfl, hcs⟩ := List.cons.inj hfront
    exact ⟨front, hcs, htail⟩

section Parts

variable {negative below : Bool} {x whole : Decimal}

/-- The exponent that digits give. -/
theorem exponentDigits_append {d : Char} {ds tail : List Char}
    (hdigits : ∀ c ∈ d :: ds, c.isDigit = true) (htail : EndsDigits tail) :
    exponentDigits negative x below (d :: ds ++ tail) =
      match exponentValue 0 (d :: ds) with
      | .ok e =>
        finishDouble negative ⟨x.digits, if below then x.exponent - e else x.exponent + e⟩ tail
      | .error left =>
        if x.digits ≠ 0 ∧ below = false then stopAfter .numberOutOfRange (left ++ tail)
        else .ok (.double (Binary64.zero.withSign negative), tail) := by
  have hleading := leadingDigits_append hdigits htail
  have hafter := afterDigits_append hdigits htail
  rw [List.cons_append] at hleading hafter ⊢
  rewrite [exponentDigits, if_pos (hdigits d List.mem_cons_self), hleading, hafter]
  rfl

theorem local_exponentDigits : Local (exponentDigits negative x below) := by
  intro cs rest n h
  obtain ⟨digits, after, rfl, hdigits, hafter⟩ := exists_digits_append cs
  cases digits with
  | nil =>
    cases after with
    | nil => simp [exponentDigits, stop] at h
    | cons c after => simp [exponentDigits, hafter c rfl, stop] at h
  | cons d ds =>
    rw [exponentDigits_append hdigits hafter] at h
    suffices hfound : after = rest ∧ ∀ tail, FollowsValue tail →
        exponentDigits negative x below (d :: ds ++ tail) = .ok (n, tail) by
      exact ⟨d :: ds, by rw [hfound.1], hfound.2⟩
    split at h
    · next e he =>
      refine ⟨(rest_of_finishDouble h).symm, ?_⟩
      intro tail htail
      rw [exponentDigits_append hdigits htail.endsDigits, he]
      exact finishDouble_of_ok h tail
    · next left hleft =>
      split at h
      · simp [stopAfter] at h
      · next hzero =>
        obtain ⟨rfl, rfl⟩ := Prod.mk.inj (Except.ok.inj h)
        refine ⟨rfl, ?_⟩
        intro tail htail
        rw [exponentDigits_append hdigits htail.endsDigits, hleft]
        exact if_neg hzero

theorem exponentDigits_nil (found : Number × List Char) :
    exponentDigits negative x below [] ≠ .ok found := by
  simp [exponentDigits, stop]

theorem local_exponentPart : Local (exponentPart negative x) := by
  intro cs rest n h
  cases cs with
  | nil => simp [exponentPart, exponentDigits, stop] at h
  | cons c cs =>
    by_cases hplus : c = '+'
    · subst hplus
      obtain ⟨front, hfront, hlocal⟩ := local_exponentDigits (h : exponentDigits _ _ _ cs = _)
      exact ⟨'+' :: front, by rw [hfront]; rfl, hlocal⟩
    by_cases hminus : c = '-'
    · subst hminus
      obtain ⟨front, hfront, hlocal⟩ := local_exponentDigits (h : exponentDigits _ _ _ cs = _)
      exact ⟨'-' :: front, by rw [hfront]; rfl, hlocal⟩
    · have hunsigned : ∀ rest, exponentPart negative x (c :: rest)
          = exponentDigits negative x false (c :: rest) := by
        intro rest
        unfold exponentPart
        split <;> simp_all
      rw [hunsigned] at h
      obtain ⟨front, hfront, hlocal⟩ := local_exponentDigits.exists_cons exponentDigits_nil h
      refine ⟨c :: front, by rw [hfront]; rfl, ?_⟩
      intro tail htail
      rw [List.cons_append, hunsigned]
      exact hlocal tail htail

/-- Reads what follows the digits of a fraction. -/
def afterFraction (negative : Bool) (x : Decimal) : List Char → Step Number
  | 'e' :: rest => exponentPart negative x rest
  | 'E' :: rest => exponentPart negative x rest
  | rest => finishDouble negative x rest

theorem fractionPart_append {d : Char} {ds tail : List Char}
    (hdigits : ∀ c ∈ d :: ds, c.isDigit = true) (htail : EndsDigits tail) :
    fractionPart negative whole (d :: ds ++ tail)
      = afterFraction negative (withFraction whole (d :: ds)) tail := by
  unfold fractionPart
  rw [leadingDigits_append hdigits htail, afterDigits_append hdigits htail]
  rfl

/-- Before the end of a value, a fraction is the end of the number. -/
theorem afterFraction_of_followsValue {tail : List Char} (h : FollowsValue tail) :
    afterFraction negative x tail = finishDouble negative x tail := by
  cases tail with
  | nil => rfl
  | cons c tail =>
    obtain ⟨-, -, he, hE⟩ := h.ends
    unfold afterFraction
    split
    · exact absurd (List.cons.inj ‹_›).1 he
    · exact absurd (List.cons.inj ‹_›).1 hE
    · rfl

/-- Before the end of a value, an integer part is the end of the number. -/
theorem afterWhole_of_followsValue {tail : List Char} (h : FollowsValue tail) :
    afterWhole negative whole tail = finishWhole negative whole tail := by
  cases tail with
  | nil => rfl
  | cons c tail =>
    obtain ⟨-, hpoint, he, hE⟩ := h.ends
    unfold afterWhole
    split
    · exact absurd (List.cons.inj ‹_›).1 hpoint
    · exact absurd (List.cons.inj ‹_›).1 he
    · exact absurd (List.cons.inj ‹_›).1 hE
    · rfl

theorem local_afterFraction : Local (afterFraction negative x) := by
  intro cs rest n h
  unfold afterFraction at h
  split at h
  · obtain ⟨front, hfront, hlocal⟩ := local_exponentPart h
    exact ⟨'e' :: front, by rw [hfront]; rfl, hlocal⟩
  · obtain ⟨front, hfront, hlocal⟩ := local_exponentPart h
    exact ⟨'E' :: front, by rw [hfront]; rfl, hlocal⟩
  · obtain rfl := rest_of_finishDouble h
    refine ⟨[], rfl, ?_⟩
    intro tail htail
    rw [List.nil_append, afterFraction_of_followsValue htail]
    exact finishDouble_of_ok h tail

/-- The front of a text that does not go on with a digit does not do so before the end of a value
either. -/
theorem EndsDigits.append {front cs tail : List Char} (h : EndsDigits (front ++ cs))
    (htail : FollowsValue tail) : EndsDigits (front ++ tail) := by
  cases front with
  | nil => exact htail.endsDigits
  | cons c front => exact endsDigits_cons (h c rfl)

theorem local_fractionPart : Local (fractionPart negative whole) := by
  intro cs rest n h
  obtain ⟨digits, after, rfl, hdigits, hafter⟩ := exists_digits_append cs
  cases digits with
  | nil =>
    have hnone : leadingDigits ([] ++ after) = [] := leadingDigits_append hdigits hafter
    unfold fractionPart at h
    rw [hnone] at h
    dsimp only at h
    split at h <;> simp [stop] at h
  | cons d ds =>
    rw [fractionPart_append hdigits hafter] at h
    obtain ⟨front, rfl, hlocal⟩ := local_afterFraction h
    refine ⟨d :: ds ++ front, (List.append_assoc _ _ _).symm, ?_⟩
    intro tail htail
    rw [List.append_assoc, fractionPart_append hdigits (hafter.append htail)]
    exact hlocal tail htail

theorem local_afterWhole : Local (afterWhole negative whole) := by
  intro cs rest n h
  unfold afterWhole at h
  split at h
  · obtain ⟨front, hfront, hlocal⟩ := local_fractionPart h
    exact ⟨'.' :: front, by rw [hfront]; rfl, hlocal⟩
  · obtain ⟨front, hfront, hlocal⟩ := local_exponentPart h
    exact ⟨'e' :: front, by rw [hfront]; rfl, hlocal⟩
  · obtain ⟨front, hfront, hlocal⟩ := local_exponentPart h
    exact ⟨'E' :: front, by rw [hfront]; rfl, hlocal⟩
  · obtain rfl := rest_of_finishWhole h
    refine ⟨[], rfl, ?_⟩
    intro tail htail
    rw [List.nil_append, afterWhole_of_followsValue htail]
    exact finishWhole_of_ok h tail

/-- A zero is a whole integer part. -/
theorem numeral_zero {tail : List Char} (htail : EndsDigits tail) :
    numeral negative ('0' :: tail) = afterWhole negative ⟨0, 0⟩ tail := by
  cases tail with
  | nil => rfl
  | cons c tail => simp [numeral, htail c rfl]

/-- Digits without a leading zero are an integer part. -/
theorem numeral_append {d : Char} {ds tail : List Char} (hd : d ≠ '0')
    (hdigits : ∀ c ∈ d :: ds, c.isDigit = true) (htail : EndsDigits tail) :
    numeral negative (d :: ds ++ tail) = afterWhole negative (wholePart (d :: ds)) tail := by
  have hleading := leadingDigits_append hdigits htail
  have hafter := afterDigits_append hdigits htail
  rw [List.cons_append] at hleading hafter ⊢
  unfold numeral
  dsimp only
  rw [if_neg hd, if_pos (hdigits d List.mem_cons_self), hleading, hafter]

theorem local_numeral : Local (numeral negative) := by
  intro cs rest n h
  obtain ⟨digits, after, rfl, hdigits, hafter⟩ := exists_digits_append cs
  cases digits with
  | nil =>
    cases after with
    | nil => simp [numeral, stop] at h
    | cons c after =>
      have hc : c ≠ '0' := by
        rintro rfl
        exact absurd (hafter '0' rfl) (by decide)
      simp [numeral, hc, hafter c rfl, stop] at h
  | cons d ds =>
    by_cases hd : d = '0'
    · subst hd
      cases ds with
      | cons d ds =>
        simp [numeral, hdigits d (by simp), stop] at h
      | nil =>
        rw [List.singleton_append, numeral_zero hafter] at h
        obtain ⟨front, rfl, hlocal⟩ := local_afterWhole h
        refine ⟨'0' :: front, rfl, ?_⟩
        intro tail htail
        rw [List.cons_append, numeral_zero (hafter.append htail)]
        exact hlocal tail htail
    · rw [numeral_append hd hdigits hafter] at h
      obtain ⟨front, rfl, hlocal⟩ := local_afterWhole h
      refine ⟨d :: ds ++ front, (List.append_assoc _ _ _).symm, ?_⟩
      intro tail htail
      rw [List.append_assoc, numeral_append hd hdigits (hafter.append htail)]
      exact hlocal tail htail

theorem numeral_nil (found : Number × List Char) : numeral negative [] ≠ .ok found := by
  simp [numeral, stop]

end Parts

/-! ## Reading a number back -/

section Rereading

variable {item : Option (Reader Json)} {c : Char} {cs rest tail : List Char} {n : Number} {x : Json}

theorem startingWith_minus (item : Option (Reader Json)) (cs : List Char) :
    startingWith item '-' cs = (numeral true cs).map fun (n, rest) => (.num n, rest) := rfl

theorem startingWith_digit (hc : c.isDigit = true) (item : Option (Reader Json)) (cs : List Char) :
    startingWith item c cs = (numeral false (c :: cs)).map fun (n, rest) => (.num n, rest) := by
  have hne : ∀ d, d.isDigit = false → c ≠ d := by
    rintro d hd rfl
    rw [hc] at hd
    cases hd
  unfold startingWith
  rw [if_neg (hne 'n' (by decide)), if_neg (hne 't' (by decide)), if_neg (hne 'f' (by decide)),
    if_neg (hne '-' (by decide)), if_pos hc]

/-- A value that starts like a number is read alike before the end of any value. -/
theorem startingWith_numeric (hc : isNumeric c = true)
    (h : startingWith item c cs = .ok (x, rest)) :
    ∃ front, cs = front ++ rest ∧ ∀ other tail, FollowsValue tail →
      startingWith other c (front ++ tail) = .ok (x, tail) := by
  unfold isNumeric at hc
  simp only [Bool.or_eq_true, decide_eq_true_eq] at hc
  rcases hc with (((hc | rfl) | rfl) | rfl) | rfl
  · rw [startingWith_digit hc] at h
    obtain ⟨⟨n, rest'⟩, hn, hx⟩ := ok_of_map h
    obtain ⟨rfl, rfl⟩ := Prod.mk.inj hx
    obtain ⟨front, hfront, hlocal⟩ := local_numeral.exists_cons numeral_nil hn
    refine ⟨front, hfront, ?_⟩
    intro other tail htail
    rw [startingWith_digit hc, ← List.cons_append, hlocal tail htail]
    rfl
  · rw [startingWith_minus] at h
    obtain ⟨⟨n, rest'⟩, hn, hx⟩ := ok_of_map h
    obtain ⟨rfl, rfl⟩ := Prod.mk.inj hx
    obtain ⟨front, hfront, hlocal⟩ := local_numeral hn
    refine ⟨front, hfront, ?_⟩
    intro other tail htail
    rw [startingWith_minus, hlocal tail htail]
    rfl
  -- a point, a plus sign and an `e` do not start a value
  · simp [startingWith, stop] at h
  · simp [startingWith, stop] at h
  · simp [startingWith, stop] at h

theorem not_isBlank_of_isNumeric (hc : isNumeric c = true) : isBlank c = false := by
  have hne : ∀ d, isNumeric d = false → c ≠ d := by
    rintro d hd rfl
    rw [hc] at hd
    cases hd
  simp [isBlank, hne ' ' (by decide), hne '\n' (by decide), hne '\t' (by decide),
    hne '\r' (by decide)]

theorem skipBlanks_of_not_isBlank (hc : isBlank c = false) (cs : List Char) :
    skipBlanks (c :: cs) = c :: cs := by
  simp [skipBlanks, hc]

/-- A number reads back: its text is the text of this number and of nothing else. -/
def Number.Rereads (n : Number) : Prop := parse (String.ofList n.text) = .ok (.num n)

theorem parse_eq_ok_iff {text : String} : parse text = .ok x ↔ document text.toList = .ok x := by
  unfold parse
  cases document text.toList with
  | error fault => simp [Except.mapError]
  | ok y => simp [Except.mapError]

/-- A document is a value and blanks. -/
theorem document_eq_ok_iff :
    document cs = .ok x ↔
      ∃ rest, (value maxDepth).run cs = .ok (x, rest) ∧ skipBlanks rest = [] := by
  unfold document
  cases (value maxDepth).run cs with
  | error fault => simp
  | ok found =>
    obtain ⟨y, rest⟩ := found
    dsimp only
    split
    · next hblank =>
      constructor
      · intro h
        obtain rfl := Except.ok.inj h
        exact ⟨rest, rfl, hblank⟩
      · rintro ⟨_, hfound, -⟩
        obtain ⟨rfl, rfl⟩ := Prod.mk.inj (Except.ok.inj hfound)
        rfl
    · next hblank =>
      constructor
      · intro h
        cases h
      · rintro ⟨_, hfound, hnil⟩
        obtain ⟨rfl, rfl⟩ := Prod.mk.inj (Except.ok.inj hfound)
        rw [hblank] at hnil
        cases hnil

/-- A number that reads back is read in front of whatever may stand behind a value. -/
theorem Number.Rereads.valueWith (h : n.Rereads) (item : Option (Reader Json))
    (htail : FollowsValue tail) : valueWith item (n.text ++ tail) = .ok (.num n, tail) := by
  obtain ⟨c, cs, htext⟩ := List.exists_cons_of_ne_nil (Number.text_ne_nil n)
  have hnumeric : ∀ d ∈ c :: cs, isNumeric d = true :=
    fun d hd => Number.isNumeric_of_mem_text (htext ▸ hd)
  have hblank : isBlank c = false := not_isBlank_of_isNumeric (hnumeric c List.mem_cons_self)
  have hdocument := parse_eq_ok_iff.mp h
  rw [String.toList_ofList, htext] at hdocument
  obtain ⟨rest, hrun, hrest⟩ := document_eq_ok_iff.mp hdocument
  have hvalue : startingWith (some (value 126)) c cs = .ok (.num n, rest) := by
    have hskip : Json.valueWith (some (value 126)) (c :: cs) = .ok (.num n, rest) := hrun
    unfold Json.valueWith at hskip
    rwa [skipBlanks_of_not_isBlank hblank] at hskip
  obtain ⟨front, hfront, hlocal⟩ := startingWith_numeric (hnumeric c List.mem_cons_self) hvalue
  -- what is left over is blank, and there are no blanks in the text of a number
  have hnil : rest = [] := by
    cases rest with
    | nil => rfl
    | cons d rest =>
      have hd : isBlank d = false := not_isBlank_of_isNumeric
        (hnumeric d (by rw [hfront]; simp))
      rw [skipBlanks_of_not_isBlank hd] at hrest
      cases hrest
  subst hnil
  rw [List.append_nil] at hfront
  rw [htext, List.cons_append, hfront]
  unfold Json.valueWith
  rw [skipBlanks_of_not_isBlank hblank]
  exact hlocal item tail htail

/-- A number reads back where the characters behind its sign are read as it. -/
theorem Number.rereads_of_numeral {negative : Bool} {d : Char} {ds : List Char}
    (hd : d.isDigit = true) (htext : n.text = (if negative then ['-'] else []) ++ d :: ds)
    (h : numeral negative (d :: ds) = .ok (n, [])) : n.Rereads := by
  unfold Rereads
  rw [parse_eq_ok_iff, String.toList_ofList, document_eq_ok_iff]
  refine ⟨[], ?_, rfl⟩
  show Json.valueWith _ _ = _
  unfold Json.valueWith
  cases negative with
  | true =>
    rw [show n.text = '-' :: d :: ds from htext, skipBlanks_of_not_isBlank (by decide)]
    show startingWith _ _ _ = _
    rw [startingWith_minus, h]
    rfl
  | false =>
    have hblank : isBlank d = false := not_isBlank_of_isNumeric (by simp [isNumeric, hd])
    rw [show n.text = d :: ds from htext, skipBlanks_of_not_isBlank hblank]
    show startingWith _ _ _ = _
    rw [startingWith_digit hd, h]
    rfl

end Rereading

/-! ## Integers -/

section Integers

theorem le_ofDigitChars (ds : List Char) (significand : Nat) :
    significand ≤ Nat.ofDigitChars 10 ds significand := by
  induction ds generalizing significand with
  | nil => exact Nat.le_refl _
  | cons d ds ih =>
    rw [Nat.ofDigitChars_cons]
    exact Nat.le_trans (by omega) (ih _)

/-- The digits of a number that fits the significand are all taken into it. -/
theorem absorb_eq_ofDigitChars {ds : List Char} {significand : Nat}
    (h : Nat.ofDigitChars 10 ds significand ≤ 18446744073709551615) :
    absorb significand ds = (Nat.ofDigitChars 10 ds significand, []) := by
  induction ds generalizing significand with
  | nil => rfl
  | cons d ds ih =>
    rw [Nat.ofDigitChars_cons, Nat.mul_comm] at h ⊢
    have hfits : significand * 10 + digitValue d ≤ 18446744073709551615 :=
      Nat.le_trans (le_ofDigitChars ds _) h
    rw [absorb, if_pos hfits]
    exact ih h

theorem wholePart_toDigits {n : Nat} (h : n ≤ 18446744073709551615) :
    wholePart (Nat.toDigits 10 n) = ⟨n, 0⟩ := by
  have hvalue : Nat.ofDigitChars 10 (Nat.toDigits 10 n) 0 = n :=
    Nat.ofDigitChars_toDigits (by decide) (by decide)
  unfold wholePart
  rw [absorb_eq_ofDigitChars (by rwa [hvalue]), hvalue]
  rfl

/-- A number above zero is not written with a leading zero. -/
theorem head?_toDigits_ne_zero {n : Nat} (h : 0 < n) : (Nat.toDigits 10 n).head? ≠ some '0' := by
  induction n using Nat.strongRecOn with
  | ind n ih =>
    by_cases hn : n < 10
    · have hall : ∀ i : Fin 10, 0 < i.val → Nat.digitChar i.val ≠ '0' := by decide
      rw [Nat.toDigits_of_lt_base hn]
      simpa using hall ⟨n, hn⟩ h
    · have hfront := ih (n / 10) (by omega) (by omega)
      obtain ⟨d, ds, hds⟩ :=
        List.exists_cons_of_ne_nil (Nat.toDigits_ne_nil : Nat.toDigits 10 (n / 10) ≠ [])
      rw [Nat.toDigits_of_base_le (by decide) (Nat.le_of_not_lt hn)]
      rw [hds] at hfront ⊢
      exact hfront

/-- The digits of an integer, behind its sign, are read as the integer. -/
theorem numeral_toDigits {negative : Bool} {k : Nat} {n : Number}
    (hk : k ≤ 18446744073709551615) (hzero : ¬ (negative = true ∧ k = 0))
    (hn : Number.ofInt? (if negative then -k else k) = some n) :
    numeral negative (Nat.toDigits 10 k) = .ok (n, []) := by
  have hwhole : afterWhole negative ⟨k, 0⟩ [] = .ok (n, []) := by
    rw [afterWhole_of_followsValue followsValue_nil]
    unfold finishWhole
    rw [if_pos ⟨rfl, hzero⟩, hn]
  have hnil : EndsDigits [] := followsValue_nil.endsDigits
  rcases Nat.eq_zero_or_pos k with rfl | hpos
  · rw [Nat.toDigits_zero, numeral_zero hnil]
    exact hwhole
  · have hdigits : ∀ c ∈ Nat.toDigits 10 k, c.isDigit = true :=
      fun c hc => Nat.isDigit_of_mem_toDigits (by decide) (by decide) hc
    have hpart := wholePart_toDigits hk
    have hhead := head?_toDigits_ne_zero hpos
    obtain ⟨d, ds, hds⟩ := List.exists_cons_of_ne_nil (Nat.toDigits_ne_nil : Nat.toDigits 10 k ≠ [])
    rw [hds] at hdigits hpart hhead ⊢
    have hd : d ≠ '0' := fun heq => hhead (congrArg some heq)
    have hread : numeral negative (d :: ds ++ []) = _ := numeral_append hd hdigits hnil
    rw [List.append_nil, hpart] at hread
    exact hread.trans hwhole

/-- Every integer reads back. -/
theorem Number.rereads_integer (n : Int) (least : -9223372036854775808 ≤ n)
    (greatest : n ≤ 18446744073709551615) : (integer n least greatest).Rereads := by
  have hint : ofInt? n = some (integer n least greatest) := dif_pos ⟨least, greatest⟩
  have hread : numeral (decide (n < 0)) (Nat.toDigits 10 n.natAbs)
      = .ok (integer n least greatest, []) := by
    refine numeral_toDigits (by omega) (by rw [decide_eq_true_iff]; omega) ?_
    have hsigned : (if decide (n < 0) = true then -(n.natAbs : Int) else n.natAbs) = n := by
      by_cases hneg : n < 0
      · rw [if_pos (decide_eq_true hneg)]
        omega
      · rw [if_neg fun h => hneg (of_decide_eq_true h)]
        omega
    rw [hsigned]
    exact hint
  obtain ⟨d, ds, hds, hd⟩ := exists_digit_toDigits n.natAbs
  rw [hds] at hread
  exact rereads_of_numeral hd (by simp [text, hds]) hread

end Integers

end ExportDiff.Json
