/-
# ExportDiff.Json.Fault — why and where a text is not JSON

A reader stops at the first fault. It reports the reason, the text it had not yet read, and how many
bytes of that text it had already looked at; `locate` turns this into a line and a column. Lines are
counted from one. The column is the number of bytes since the last line break, of the bytes that were
read or looked at; a line break that was looked at therefore counts to the next line, at column zero.
-/

namespace ExportDiff.Json

/-- Why a text is not JSON. -/
inductive Reason where
  | endInValue
  | endInList
  | endInObject
  | endInString
  | expectedValue
  | expectedWord
  | expectedColon
  | expectedCommaOrBracket
  | expectedCommaOrBrace
  | trailingComma
  | keyNotString
  | trailingCharacters
  | nestedTooDeeply
  | invalidNumber
  | numberOutOfRange
  | controlCharacter
  | invalidEscape
  | unpairedSurrogate
  | pairCutShort
  deriving DecidableEq, Repr

/-- The wording of a reason. -/
def Reason.message : Reason → String
  | .endInValue => "EOF while parsing a value"
  | .endInList => "EOF while parsing a list"
  | .endInObject => "EOF while parsing an object"
  | .endInString => "EOF while parsing a string"
  | .expectedValue => "expected value"
  | .expectedWord => "expected ident"
  | .expectedColon => "expected `:`"
  | .expectedCommaOrBracket => "expected `,` or `]`"
  | .expectedCommaOrBrace => "expected `,` or `\x7d`"
  | .trailingComma => "trailing comma"
  | .keyNotString => "key must be a string"
  | .trailingCharacters => "trailing characters"
  | .nestedTooDeeply => "recursion limit exceeded"
  | .invalidNumber => "invalid number"
  | .numberOutOfRange => "number out of range"
  | .controlCharacter => "control character (\\u0000-\\u001F) found while parsing a string"
  | .invalidEscape => "invalid escape"
  | .unpairedSurrogate => "lone leading surrogate in hex escape"
  | .pairCutShort => "unexpected end of hex escape"

/-- A fault as a reader meets it: `seen` bytes of `rest` had been looked at. -/
structure Fault where
  reason : Reason
  rest : List Char
  seen : Nat

/-- A fault and its place in the text. -/
structure SyntaxError where
  reason : Reason
  line : Nat
  column : Nat
  deriving DecidableEq, Repr

/-- The wording of a syntax error. -/
def SyntaxError.message (e : SyntaxError) : String :=
  e.reason.message ++ " at line " ++ toString e.line ++ " column " ++ toString e.column

/-! ## Places -/

/-- The number of bytes of a text. -/
def byteLength (cs : List Char) : Nat := cs.foldr (fun c n => c.utf8Size + n) 0

/-- Line and column after `bytes` more bytes of `cs`, from a place in line `line`, `column` bytes
after its last line break. -/
def advance (line column : Nat) : Nat → List Char → Nat × Nat
  | 0, _ => (line, column)
  | _, [] => (line, column)
  | bytes + 1, c :: cs =>
    if c = '\n' then advance (line + 1) 0 bytes cs
    else if c.utf8Size ≤ bytes + 1 then
      advance line (column + c.utf8Size) (bytes + 1 - c.utf8Size) cs
    else (line, column + bytes + 1)
termination_by structural _ cs => cs

/-- The place of a fault in the text that was read. -/
def Fault.locate (text : List Char) (f : Fault) : SyntaxError :=
  let (line, column) := advance 1 0 (byteLength text - byteLength f.rest + f.seen) text
  ⟨f.reason, line, column⟩

end ExportDiff.Json
