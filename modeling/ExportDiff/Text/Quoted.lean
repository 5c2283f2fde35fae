/-
# ExportDiff.Text.Quoted — a text shown between quotation marks

Shown for inspection, a text stands between quotation marks. Quotation marks, backslashes and common
control characters are escaped by a backslash and a letter or digit; every other character that is
not visible by itself is written as `\u`, its code point in lower-case hexadecimal digits between
braces.
-/

import ExportDiff.Text.Visible

namespace ExportDiff.Text

/-- A character inside the quotation marks. -/
def quotedChar (c : Char) : List Char :=
  if c = '"' then ['\\', '"']
  else if c = '\\' then ['\\', '\\']
  else if c = '\n' then ['\\', 'n']
  else if c = '\r' then ['\\', 'r']
  else if c = '\t' then ['\\', 't']
  else if c.toNat = 0 then ['\\', '0']
  else if isVisible c then [c]
  else '\\' :: 'u' :: '\x7b' :: (Nat.toDigits 16 c.toNat ++ ['\x7d'])

/-- A text between quotation marks. -/
def quoted (s : String) : String := String.ofList ('"' :: s.toList.flatMap quotedChar ++ ['"'])

/-- A set of texts, each between quotation marks, in the given order. -/
def quotedSet (texts : List String) : String :=
  "\x7b" ++ String.intercalate ", " (texts.map quoted) ++ "\x7d"

end ExportDiff.Text
