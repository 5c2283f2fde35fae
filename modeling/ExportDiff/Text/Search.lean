/-
# ExportDiff.Text.Search — parts of a text

Whether a text contains another one, or ends with it; the lines of a text; the text without the
blanks at its ends.
-/

namespace ExportDiff.Text

/-- Whether a text occurs in another one. -/
def occursIn (needle : List Char) : List Char → Bool
  | [] => needle.isEmpty
  | c :: cs => needle.isPrefixOf (c :: cs) || occursIn needle cs

/-- A text occurs in another one exactly where it is a stretch of it. -/
theorem occursIn_iff {needle cs : List Char} : occursIn needle cs = true ↔ needle <:+: cs := by
  induction cs with
  | nil => rw [occursIn, List.isEmpty_iff, List.infix_nil]
  | cons c cs ih =>
    rw [occursIn, Bool.or_eq_true, ih, List.isPrefixOf_iff_prefix, List.infix_cons_iff]

/-- A letter of the ASCII alphabet as its small form; other characters stay. -/
def lower (cs : List Char) : List Char := cs.map Char.toLower

/-! ## Lines -/

/-- A line without the carriage return before its line feed; the line is given last character
first. -/
def endLine : List Char → List Char
  | '\r' :: read => read.reverse
  | read => read.reverse

/-- The lines of a text, from a place inside a line of which `read` holds, last first, the
characters before it. A line feed ends a line, with a carriage return before it if there is one; a
last line may have no end. -/
def linesFrom (read : List Char) : List Char → List (List Char)
  | [] => if read = [] then [] else [read.reverse]
  | c :: cs => if c = '\n' then endLine read :: linesFrom [] cs else linesFrom (c :: read) cs

/-- The lines of a text. -/
def lines (cs : List Char) : List (List Char) := linesFrom [] cs

/-- The characters that count as white space. -/
def isSpace (c : Char) : Bool :=
  (0x09 ≤ c.toNat && c.toNat ≤ 0x0D) || c = ' ' || c.toNat == 0x85 || c.toNat == 0xA0 ||
    c.toNat == 0x1680 || (0x2000 ≤ c.toNat && c.toNat ≤ 0x200A) || c.toNat == 0x2028 ||
    c.toNat == 0x2029 || c.toNat == 0x202F || c.toNat == 0x205F || c.toNat == 0x3000

/-- Whether a line holds nothing but white space. -/
def isBlankLine (line : List Char) : Bool := line.all isSpace

end ExportDiff.Text
