/-
# ExportDiff.Json.Reader — reading one thing off the front of a text

A step reads the front of a text and gives what it found together with the text behind it, or stops
at a fault. A `Reader` is a step that never succeeds without taking at least one character, so loops
that call it again on the rest come to an end.
-/

import ExportDiff.Json.Fault

namespace ExportDiff.Json

/-- What a step finds, and the text behind it. -/
abbrev Step (α : Type) := Except Fault (α × List Char)

/-- Stops at the front of `rest`, having looked at its first byte, if there is one. -/
def stop {α : Type} (reason : Reason) (rest : List Char) : Step α := .error ⟨reason, rest, 1⟩

/-- Stops behind everything that was read. -/
def stopAfter {α : Type} (reason : Reason) (rest : List Char) : Step α := .error ⟨reason, rest, 0⟩

/-- A step that takes at least one character where it succeeds. -/
structure Reader (α : Type) where
  run : List Char → Step α
  shrinks : ∀ {cs : List Char} {x : α} {rest : List Char},
    run cs = .ok (x, rest) → rest.length < cs.length

/-! ## Blanks and digits -/

/-- The characters that may stand between the parts of a text. -/
def isBlank (c : Char) : Bool := c = ' ' || c = '\n' || c = '\t' || c = '\r'

/-- The text behind the blanks at its front. -/
def skipBlanks (cs : List Char) : List Char := cs.dropWhile isBlank

theorem length_dropWhile_le {α : Type} (p : α → Bool) (xs : List α) :
    (xs.dropWhile p).length ≤ xs.length := (List.dropWhile_sublist p).length_le

theorem length_skipBlanks_le (cs : List Char) : (skipBlanks cs).length ≤ cs.length :=
  length_dropWhile_le _ cs

/-- The digits at the front of a text. -/
def leadingDigits (cs : List Char) : List Char := cs.takeWhile Char.isDigit

/-- The text behind the digits at its front. -/
def afterDigits (cs : List Char) : List Char := cs.dropWhile Char.isDigit

theorem leadingDigits_append_afterDigits (cs : List Char) :
    leadingDigits cs ++ afterDigits cs = cs := List.takeWhile_append_dropWhile

theorem length_afterDigits_le (cs : List Char) : (afterDigits cs).length ≤ cs.length :=
  length_dropWhile_le _ cs

/-- The value of a decimal digit. -/
def digitValue (c : Char) : Nat := c.toNat - '0'.toNat

/-! ## Words -/

/-- Takes the given letters off the front of a text. -/
def word {α : Type} (x : α) : List Char → List Char → Step α
  | [], cs => .ok (x, cs)
  | _ :: _, [] => stop .endInValue []
  | letter :: letters, c :: cs =>
    if c = letter then word x letters cs else stop .expectedWord (c :: cs)

theorem length_le_of_word {α : Type} {x y : α} {letters cs rest : List Char}
    (h : word x letters cs = .ok (y, rest)) : rest.length ≤ cs.length := by
  induction letters generalizing cs with
  | nil => simp only [word, Except.ok.injEq, Prod.mk.injEq] at h; simp [h.2]
  | cons letter letters ih =>
    cases cs with
    | nil => simp [word, stop] at h
    | cons c cs =>
      simp only [word] at h
      split at h
      · exact Nat.le_succ_of_le (ih h)
      · simp [stop] at h

end ExportDiff.Json
