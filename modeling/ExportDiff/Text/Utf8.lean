/-
# ExportDiff.Text.Utf8 — texts as bytes, and bytes as text, whatever they are

A place in a text may be given by the number of bytes in front of it.

File names are bytes. Shown as text, every stretch of them that is no character becomes one
replacement character: the longest front of a character that is cut short, or otherwise a single
byte. Different names may therefore be shown alike.
-/

namespace ExportDiff.Text

/-- The bytes of a text. -/
def toBytes (s : String) : List UInt8 := s.toByteArray.data.toList

/-- The number of bytes of characters. -/
def byteCount : List Char → Nat
  | [] => 0
  | c :: cs => c.utf8Size + byteCount cs

/-- The text behind a number of bytes; a character that they would split is left out. -/
def dropBytes : Nat → List Char → List Char
  | _, [] => []
  | 0, cs => cs
  | n + 1, c :: cs => dropBytes (n + 1 - c.utf8Size) cs

/-- The text within a number of bytes; a character that they would split is left out. -/
def takeBytes : Nat → List Char → List Char
  | _, [] => []
  | n, c :: cs => if c.utf8Size ≤ n then c :: takeBytes (n - c.utf8Size) cs else []

/-- The character shown for bytes that are none. -/
def replacement : Char := '\ufffd'

/-- What the first byte of a longer character says: its own bits, the number of bytes to follow, and
the range of the next one. -/
def leading? (byte : Nat) : Option (Nat × Nat × Nat × Nat) :=
  if 0xC2 ≤ byte ∧ byte ≤ 0xDF then some (byte % 0x20, 1, 0x80, 0xBF)
  else if byte = 0xE0 then some (byte % 0x10, 2, 0xA0, 0xBF)
  else if byte = 0xED then some (byte % 0x10, 2, 0x80, 0x9F)
  else if 0xE1 ≤ byte ∧ byte ≤ 0xEF then some (byte % 0x10, 2, 0x80, 0xBF)
  else if byte = 0xF0 then some (byte % 0x08, 3, 0x90, 0xBF)
  else if 0xF1 ≤ byte ∧ byte ≤ 0xF3 then some (byte % 0x08, 3, 0x80, 0xBF)
  else if byte = 0xF4 then some (byte % 0x08, 3, 0x80, 0x8F)
  else none

/-- Takes the bytes that follow a first byte, the next one from a range of its own; gives the code
point, unless one does not fit, and the bytes behind. -/
def following (bits : Nat) : Nat → Nat → Nat → List UInt8 → Option Nat × List UInt8
  | 0, _, _, bytes => (some bits, bytes)
  | _ + 1, _, _, [] => (none, [])
  | n + 1, low, high, byte :: bytes =>
    if low ≤ byte.toNat ∧ byte.toNat ≤ high then
      following (bits * 0x40 + byte.toNat % 0x40) n 0x80 0xBF bytes
    else (none, byte :: bytes)

theorem length_following_le (bits n low high : Nat) (bytes : List UInt8) :
    (following bits n low high bytes).2.length ≤ bytes.length := by
  induction bytes generalizing bits n low high with
  | nil => cases n <;> simp [following]
  | cons byte bytes ih =>
    cases n with
    | zero => simp [following]
    | succ n =>
      simp only [following]
      split
      · exact Nat.le_succ_of_le (ih _ _ _ _)
      · exact Nat.le_refl _

/-- The text of bytes, with replacement characters. -/
def ofBytes : List UInt8 → List Char
  | [] => []
  | byte :: bytes =>
    if byte < 0x80 then Char.ofNat byte.toNat :: ofBytes bytes
    else
      match leading? byte.toNat with
      | none => replacement :: ofBytes bytes
      | some (bits, n, low, high) =>
        let found := following bits n low high bytes
        (found.1.elim replacement Char.ofNat) :: ofBytes found.2
termination_by bytes => bytes.length
decreasing_by
  · simp
  · simp
  · exact Nat.lt_succ_of_le (length_following_le _ _ _ _ _)

end ExportDiff.Text
