/-
# ExportDiff.Text.Number — whether a text is a number

A number may have a sign, a point with digits on at least one side of it, and an exponent. The words
for infinity, and the one for what is no number at all, count too, in letters of either case.
-/

import ExportDiff.Text.Search

namespace ExportDiff.Text

/-- The text behind a sign, if there is one. -/
def unsigned : List Char → List Char
  | '+' :: cs => cs
  | '-' :: cs => cs
  | cs => cs

/-- Whether nothing stands behind the digits of a number but an exponent. -/
def isExponent : List Char → Bool
  | [] => true
  | c :: cs => (c = 'e' || c = 'E') && unsigned cs ≠ [] && (unsigned cs).all Char.isDigit

/-- Whether a text is digits with a point and an exponent. -/
def isDecimal (cs : List Char) : Bool :=
  match cs.dropWhile Char.isDigit with
  | '.' :: rest =>
    (cs.head?.any Char.isDigit || rest.head?.any Char.isDigit) &&
      isExponent (rest.dropWhile Char.isDigit)
  | rest => cs.head?.any Char.isDigit && isExponent rest

/-- The words that stand for numbers. -/
def numberWords : List String := ["inf", "infinity", "nan"]

/-- Whether a text is a number. -/
def isNumber (cs : List Char) : Bool :=
  isDecimal (unsigned cs) || numberWords.contains (String.ofList (lower (unsigned cs)))

example : isNumber ['+', '.', '5', 'e', '-', '3'] = true := by decide +kernel
example : isNumber ['+', '.', 'e', '3'] = false := by decide +kernel
example : isNumber ['-', 'I', 'n', 'f'] = true := by decide +kernel

end ExportDiff.Text
