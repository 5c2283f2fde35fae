/-
# ExportDiff.Similarity.Seeds — where the bytes of a string occur

The seeds of a string are listed by byte value: for each value, the positions at which it occurs, in
increasing order. In a string of 200 bytes or more, a value that makes up more than one percent of it,
plus one, is too frequent to be a seed.
-/

namespace ExportDiff.Similarity

/-- The number of byte values. -/
def byteValues : Nat := 256

/-- The positions of each byte value, for a stretch of bytes that begins at position `j`. -/
def positionsFrom (j : Nat) : List UInt8 → Array (List Nat)
  | [] => Array.replicate byteValues []
  | byte :: bytes => (positionsFrom (j + 1) bytes).modify byte.toNat (j :: ·)

/-- The length from which on frequent bytes are no seeds. -/
def frequencyFrom : Nat := 200

/-- How often a byte value may occur in a string and still be a seed. -/
def seedLimit (bs : List UInt8) : Nat :=
  if bs.length < frequencyFrom then bs.length else bs.length / 100 + 1

/-- The positions of the seeds of a string, by byte value. -/
def seedPositions (bs : List UInt8) : Array (List Nat) :=
  let limit := seedLimit bs
  (positionsFrom 0 bs).map fun js => if js.length ≤ limit then js else []

/-! ## What is listed occurs -/

/-- The positions of one byte value in a stretch of bytes that begins at position `j`. -/
def occurrences (byte : UInt8) (j : Nat) : List UInt8 → List Nat
  | [] => []
  | x :: xs => if x = byte then j :: occurrences byte (j + 1) xs else occurrences byte (j + 1) xs

theorem getElem?_positionsFrom (byte : UInt8) (j : Nat) (bs : List UInt8) :
    (positionsFrom j bs)[byte.toNat]? = some (occurrences byte j bs) := by
  induction bs generalizing j with
  | nil =>
    have : byte.toNat < byteValues := byte.toNat_lt
    simp [positionsFrom, occurrences, this]
  | cons x xs ih =>
    simp only [positionsFrom, Array.getElem?_modify, ih, Option.map_some, occurrences]
    by_cases h : x = byte
    · simp [h]
    · have : x.toNat ≠ byte.toNat := fun e => h (UInt8.toNat_inj.1 e)
      simp [h, this]

/-- The seeds of a byte value are all its occurrences, if they are few enough. -/
theorem getElem?_seedPositions (byte : UInt8) (bs : List UInt8) :
    (seedPositions bs)[byte.toNat]? =
      some (if (occurrences byte 0 bs).length ≤ seedLimit bs then occurrences byte 0 bs else []) := by
  simp [seedPositions, getElem?_positionsFrom]

end ExportDiff.Similarity
