/-
# ExportDiff.Pattern.Atom — the smallest parts of a pattern

A backslash gives the character behind it another meaning: a sign stands for itself, a letter for a
control character, a kind of character or a place, and some letters begin the number of a character.
What a backslash and a letter or a digit do not stand for is no atom.

There are no tables of the characters of all scripts, so an atom that needs one is not allowed where
these are meant: a kind of character, the border of a word, and a character of which the other case
would have to be known. Where only ASCII is meant, nothing is allowed that could match a byte which
is no character.
-/

import ExportDiff.Pattern.Modes
import ExportDiff.Text.Hex

namespace ExportDiff.Pattern

/-- A smallest part of a pattern. -/
inductive Atom where
  /-- A character; `byte` says that it was written as two hexadecimal digits. -/
  | char (c : Char) (byte : Bool)
  /-- Digits, blanks or the characters of words, or all others. -/
  | kind (others : Bool)
  /-- An end of the text. -/
  | textEnd
  /-- A border of a word, or a place that is none. -/
  | wordBorder
  deriving DecidableEq, Repr

/-! ## Reading an atom behind a backslash -/

/-- A number of `n` more hexadecimal digits behind ones of the given value, and the text behind. -/
def hexNumber? (m : Modes) : Nat → Nat → List Char → Option (Nat × List Char)
  | 0, value, cs => some (value, cs)
  | n + 1, value, cs =>
    match m.skip cs with
    | [] => none
    | c :: rest =>
      match Text.hexValue? c with
      | none => none
      | some digit => hexNumber? m n (value * 16 + digit) rest

/-- The character whose number is at the front of a text. -/
def numbered? (m : Modes) (digits : Nat) (cs : List Char) : Option (Atom × List Char) :=
  match hexNumber? m digits 0 cs with
  | none => none
  | some (value, rest) =>
    if value < 0xD800 ∨ (0xE000 ≤ value ∧ value < 0x110000) then
      some (.char (Char.ofNat value) (digits = 2), rest)
    else none

/-- Whether a character stands for itself behind a backslash. -/
def isSign (c : Char) : Bool := c.toNat < 0x80 && !c.isAlphanum

/-- The atom of a backslash and a character other than those that begin a number. -/
def Atom.escaped? (c : Char) : Option Atom :=
  match c with
  | 'd' => some (.kind false)
  | 's' => some (.kind false)
  | 'w' => some (.kind false)
  | 'D' => some (.kind true)
  | 'S' => some (.kind true)
  | 'W' => some (.kind true)
  | 'A' => some .textEnd
  | 'z' => some .textEnd
  | 'b' => some .wordBorder
  | 'B' => some .wordBorder
  | '<' => some .wordBorder
  | '>' => some .wordBorder
  | 'a' => some (.char '\x07' false)
  | 't' => some (.char '\t' false)
  | 'n' => some (.char '\n' false)
  | 'v' => some (.char '\x0b' false)
  | 'f' => some (.char '\x0c' false)
  | 'r' => some (.char '\r' false)
  | c => if isSign c then some (.char c false) else none

/-- The atom behind a backslash, and the text behind it. -/
def escape? (m : Modes) : List Char → Option (Atom × List Char)
  | [] => none
  | c :: rest =>
    if c = 'x' then numbered? m 2 rest
    else if c = 'u' then numbered? m 4 rest
    else if c = 'U' then numbered? m 8 rest
    else (Atom.escaped? c).map (·, rest)

/-- The atom that begins with a character, and the text behind it. -/
def atom? (m : Modes) (c : Char) (rest : List Char) : Option (Atom × List Char) :=
  if c = '\\' then escape? m rest else some (.char c false, rest)

/-! ## What is allowed -/

/-- Whether an atom may stand by itself. -/
def Modes.allows (m : Modes) : Atom → Bool
  | .char c byte => if m.unicode then !m.ignoreCase else !(byte && 0x80 ≤ c.toNat)
  | .kind others => !m.unicode && !others
  | .textEnd => true
  | .wordBorder => !m.unicode

/-- Whether an atom may stand in a set. -/
def Modes.allowsInSet (m : Modes) : Atom → Bool
  | .char c _ => if m.unicode then !m.ignoreCase else c.toNat < 0x80
  | .kind others => !m.unicode && !others
  | .textEnd => false
  | .wordBorder => false

/-- Whether a set may hold the characters from one to another. -/
def Modes.allowsRange (m : Modes) : Atom → Atom → Bool
  | .char c b, .char d b' => c ≤ d && m.allowsInSet (.char c b) && m.allowsInSet (.char d b')
  | _, _ => false

/-! ## Progress -/

theorem length_le_of_hexNumber? {m : Modes} {n value value' : Nat} {cs rest : List Char}
    (h : hexNumber? m n value cs = some (value', rest)) : rest.length ≤ cs.length := by
  induction n generalizing value cs with
  | zero => simp only [hexNumber?, Option.some.injEq, Prod.mk.injEq] at h; simp [h.2]
  | succ n ih =>
    have hle := m.length_skip_le cs
    simp only [hexNumber?] at h
    split at h
    · simp at h
    · next heq =>
      rw [heq, List.length_cons] at hle
      split at h
      · simp at h
      · exact Nat.le_trans (ih h) (by omega)

theorem length_le_of_numbered? {m : Modes} {digits : Nat} {cs rest : List Char} {a : Atom}
    (h : numbered? m digits cs = some (a, rest)) : rest.length ≤ cs.length := by
  unfold numbered? at h
  split at h
  · simp at h
  · next heq =>
    split at h
    · rw [← (Prod.mk.inj (Option.some.inj h)).2]
      exact length_le_of_hexNumber? heq
    · simp at h

theorem length_lt_of_escape? {m : Modes} {cs rest : List Char} {a : Atom}
    (h : escape? m cs = some (a, rest)) : rest.length < cs.length := by
  unfold escape? at h
  split at h
  · simp at h
  · next c cs =>
    rw [List.length_cons]
    split at h
    · exact Nat.lt_succ_of_le (length_le_of_numbered? h)
    split at h
    · exact Nat.lt_succ_of_le (length_le_of_numbered? h)
    split at h
    · exact Nat.lt_succ_of_le (length_le_of_numbered? h)
    · obtain ⟨_, _, heq⟩ := Option.map_eq_some_iff.1 h
      rw [← (Prod.mk.inj heq).2]
      exact Nat.lt_succ_self _

theorem length_le_of_atom? {m : Modes} {c : Char} {cs rest : List Char} {a : Atom}
    (h : atom? m c cs = some (a, rest)) : rest.length ≤ cs.length := by
  unfold atom? at h
  split at h
  · exact Nat.le_of_lt (length_lt_of_escape? h)
  · exact Nat.le_of_eq (congrArg List.length (Prod.mk.inj (Option.some.inj h)).2.symm)

end ExportDiff.Pattern
