/-
# ExportDiff.Json.Printer — the text of a value

`write` gives the compact text, without blanks, for either form of string literal; `pretty` gives the
text with one item or member a line, indented by two blanks for each open array or object, an empty
array or object staying `[]` or `{}`.
-/

import ExportDiff.Json.Basic
import ExportDiff.Json.Quote

namespace ExportDiff.Json

/-! ## Compact text -/

/-- The word for a truth value. -/
def boolText (b : Bool) : List Char :=
  if b then ['t', 'r', 'u', 'e'] else ['f', 'a', 'l', 's', 'e']

/-- The word for the absent value. -/
def nullText : List Char := ['n', 'u', 'l', 'l']

mutual

/-- The compact text of a value; `literal` writes its strings and names. -/
def write (literal : String → List Char) : Json → List Char
  | .null => nullText
  | .bool b => boolText b
  | .num n => n.text
  | .str s => literal s
  | .arr [] => ['[', ']']
  | .arr (x :: xs) => '[' :: (write literal x ++ writeItems literal xs)
  | .obj [] => ['{', '}']
  | .obj ((name, x) :: ms) =>
    '{' :: (literal name ++ ':' :: (write literal x ++ writeMembers literal ms))
termination_by structural x => x

/-- The items after the first one, and the closing bracket. -/
def writeItems (literal : String → List Char) : List Json → List Char
  | [] => [']']
  | x :: xs => ',' :: (write literal x ++ writeItems literal xs)
termination_by structural xs => xs

/-- The members after the first one, and the closing brace. -/
def writeMembers (literal : String → List Char) : List (String × Json) → List Char
  | [] => ['}']
  | (name, x) :: ms => ',' :: (literal name ++ ':' :: (write literal x ++ writeMembers literal ms))
termination_by structural ms => ms

end

/-- The compact text of a value. -/
def compact (x : Json) : String := String.ofList (write quote x)

/-! ## Indented text -/

/-- A line break and the indentation of a nesting level. -/
def lineBreak (level : Nat) : List Char := '\n' :: List.replicate (2 * level) ' '

mutual

/-- The indented text of a value that stands at a nesting level. -/
def indented (level : Nat) : Json → List Char
  | .null => nullText
  | .bool b => boolText b
  | .num n => n.text
  | .str s => quote s
  | .arr [] => ['[', ']']
  | .arr (x :: xs) =>
    '[' :: (lineBreak (level + 1) ++ (indented (level + 1) x ++ indentedItems level xs))
  | .obj [] => ['{', '}']
  | .obj ((name, x) :: ms) =>
    '{' :: (lineBreak (level + 1) ++
      (quote name ++ ':' :: ' ' :: (indented (level + 1) x ++ indentedMembers level ms)))
termination_by structural x => x

/-- The items after the first one, and the closing bracket. -/
def indentedItems (level : Nat) : List Json → List Char
  | [] => lineBreak level ++ [']']
  | x :: xs =>
    ',' :: (lineBreak (level + 1) ++ (indented (level + 1) x ++ indentedItems level xs))
termination_by structural xs => xs

/-- The members after the first one, and the closing brace. -/
def indentedMembers (level : Nat) : List (String × Json) → List Char
  | [] => lineBreak level ++ ['}']
  | (name, x) :: ms =>
    ',' :: (lineBreak (level + 1) ++
      (quote name ++ ':' :: ' ' :: (indented (level + 1) x ++ indentedMembers level ms)))
termination_by structural ms => ms

end

/-- The indented text of a value. -/
def pretty (x : Json) : String := String.ofList (indented 0 x)

end ExportDiff.Json
