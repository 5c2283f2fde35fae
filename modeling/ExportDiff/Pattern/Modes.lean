/-
# ExportDiff.Pattern.Modes — what is switched on at a place of a pattern

Letters in a group that begins with a question mark switch something on and, behind a minus sign,
off. Three of the switches bear on what a pattern may hold: whether case is ignored, whether
characters of all scripts are meant, and whether blanks and comments may stand between its parts.
-/

import ExportDiff.Text.Search

namespace ExportDiff.Pattern

/-- What is switched on at a place of a pattern. -/
structure Modes where
  /-- Letters of either case are the same. -/
  ignoreCase : Bool
  /-- Characters of all scripts are meant, not those of the ASCII alphabet. -/
  unicode : Bool
  /-- Blanks and comments may stand between the parts. -/
  verbose : Bool
  deriving DecidableEq, Repr

/-- What is switched on where a pattern begins. -/
def Modes.initial : Modes := ⟨false, true, false⟩

/-- The letters of the switches. -/
def switchLetters : List Char := ['i', 'm', 's', 'U', 'u', 'R', 'x']

/-- What is switched on behind letters, the ones behind a minus sign switching off. No letter may
stand there twice, and the minus sign not at the end. -/
def Modes.switched? (m : Modes) (letters : List Char) : Option Modes :=
  let on := letters.takeWhile (· ≠ '-')
  let state (letter : Char) (old : Bool) :=
    if letters.contains letter then on.contains letter else old
  if letters.all (fun c => (c = '-' || switchLetters.contains c) && letters.count c = 1) &&
      letters.getLast? ≠ some '-' then
    some ⟨state 'i' m.ignoreCase, state 'u' m.unicode, state 'x' m.verbose⟩
  else none

/-! ## Blanks and comments -/

/-- The text behind blanks and comments, from a place that is inside a comment or not. A comment
goes from a number sign to the end of the line. -/
def behindBlanks : Bool → List Char → List Char
  | _, [] => []
  | true, c :: cs => behindBlanks (c ≠ '\n') cs
  | false, c :: cs =>
    if Text.isSpace c then behindBlanks false cs
    else if c = '#' then behindBlanks true cs
    else c :: cs

/-- The text behind the blanks and comments that may stand between two parts. -/
def Modes.skip (m : Modes) (cs : List Char) : List Char :=
  if m.verbose then behindBlanks false cs else cs

theorem length_behindBlanks_le (comment : Bool) (cs : List Char) :
    (behindBlanks comment cs).length ≤ cs.length := by
  induction cs generalizing comment with
  | nil => cases comment <;> simp [behindBlanks]
  | cons c cs ih =>
    cases comment with
    | true => exact Nat.le_succ_of_le (ih _)
    | false =>
      simp only [behindBlanks]
      split
      · exact Nat.le_succ_of_le (ih _)
      split
      · exact Nat.le_succ_of_le (ih _)
      · exact Nat.le_refl _

theorem Modes.length_skip_le (m : Modes) (cs : List Char) : (m.skip cs).length ≤ cs.length := by
  unfold skip
  split
  · exact length_behindBlanks_le _ _
  · exact Nat.le_refl _

/-- The next character of a text. Blanks are passed over where they may stand, and so is one number
sign, but not the comment behind it. -/
def Modes.peek? (m : Modes) (cs : List Char) : Option Char :=
  if m.verbose then
    match cs.dropWhile Text.isSpace with
    | '#' :: rest => (rest.dropWhile Text.isSpace).head?
    | rest => rest.head?
  else cs.head?

end ExportDiff.Pattern
