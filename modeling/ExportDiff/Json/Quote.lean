/-
# ExportDiff.Json.Quote — string literals

A string is written between quotation marks. A quotation mark, a backslash and the control characters
below `0x20` are always written as escapes, the common ones by a letter and the others as `\u` with
four lower-case hexadecimal digits.

The two forms of a literal differ in the other characters only: `quote` writes them as they are;
`quoteAscii` writes every character above `~` as the escapes of its UTF-16 units, one unit inside the
basic plane and a surrogate pair outside it, so that only printable ASCII is left.
-/

namespace ExportDiff.Json

/-! ## UTF-16 units -/

/-- The UTF-16 units of a character. -/
def units (c : Char) : List Nat :=
  if c.toNat < 0x10000 then [c.toNat]
  else [0xD800 + (c.toNat - 0x10000) / 0x400, 0xDC00 + (c.toNat - 0x10000) % 0x400]

/-- A lower-case hexadecimal digit. -/
def hexDigit (n : Nat) : Char := Nat.digitChar (n % 16)

/-- The escape of one unit. -/
def unitEscape (u : Nat) : List Char :=
  ['\\', 'u', hexDigit (u / 4096), hexDigit (u / 256), hexDigit (u / 16), hexDigit u]

/-- The escapes of a character's units. -/
def unicodeEscape (c : Char) : List Char := (units c).flatMap unitEscape

/-! ## Literals -/

/-- The letter that stands after the backslash in a character's short escape. -/
def shortEscape? (c : Char) : Option Char :=
  if c = '"' then some '"'
  else if c = '\\' then some '\\'
  else if c = '\n' then some 'n'
  else if c = '\r' then some 'r'
  else if c = '\t' then some 't'
  else if c = '\x08' then some 'b'
  else if c = '\x0c' then some 'f'
  else none

/-- A character inside a literal that leaves all but control characters as they are. -/
def escape (c : Char) : List Char :=
  match shortEscape? c with
  | some letter => ['\\', letter]
  | none => if c.toNat < 0x20 then unicodeEscape c else [c]

/-- A character inside a literal of printable ASCII. -/
def escapeAscii (c : Char) : List Char :=
  match shortEscape? c with
  | some letter => ['\\', letter]
  | none => if ' ' ≤ c ∧ c ≤ '~' then [c] else unicodeEscape c

/-- The literal of a string. -/
def quote (s : String) : List Char := '"' :: s.toList.flatMap escape ++ ['"']

/-- The literal of a string in printable ASCII. -/
def quoteAscii (s : String) : List Char := '"' :: s.toList.flatMap escapeAscii ++ ['"']

example : quoteAscii "é😀" = "\"\\u00e9\\ud83d\\ude00\"".toList := by decide
example : quote "é\x01\x7f" = "\"é\\u0001\x7f\"".toList := by decide

end ExportDiff.Json
