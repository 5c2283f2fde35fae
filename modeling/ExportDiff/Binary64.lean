/-
# ExportDiff.Binary64 — finite 64-bit floating-point numbers, in exact arithmetic

A finite double is a sign and a magnitude, the magnitude being its 63 lower bits read as a natural
number. With `2 ^ 52` patterns for each exponent this numbering is increasing in the value, zero is
pattern 0 and the first infinity would be pattern `2047 * 2 ^ 52`; so an order on magnitudes is an
order on natural numbers, and equality of doubles is decidable.

The value of a magnitude is `significand * 2 ^ exponent`. Arithmetic is exact arithmetic on fractions
of natural numbers followed by one rounding, `nearest`: to the nearest double, a tie to the even
pattern. Nothing here depends on the floating-point unit, so every result can be computed in a proof.
-/

namespace ExportDiff

/-- The number of bit patterns for each exponent, `2 ^ 52`. -/
def binade : Nat := 4503599627370496

/-- A finite double: its sign, and its magnitude as a bit pattern. -/
structure Binary64 where
  negative : Bool
  magnitude : Nat
  finite : magnitude < 2047 * binade
  deriving DecidableEq

namespace Binary64

/-! ## The value of a double -/

/-- The number of units in the last place that the magnitude is made of. -/
def significand (x : Binary64) : Nat :=
  if x.magnitude / binade = 0 then x.magnitude else x.magnitude % binade + binade

/-- The binary exponent of one unit in the last place. -/
def exponent (x : Binary64) : Int :=
  if x.magnitude / binade = 0 then -1074 else (x.magnitude / binade : Nat) - 1075

/-- Whether the next smaller magnitude is only half a unit away: at a power of two above the
subnormal range. -/
def atPowerOfTwo (x : Binary64) : Bool :=
  x.magnitude % binade == 0 && 1 < x.magnitude / binade

/-- The magnitude as a fraction of natural numbers. -/
def fraction (x : Binary64) : Nat × Nat :=
  (x.significand * Nat.pow 2 x.exponent.toNat, Nat.pow 2 (-x.exponent).toNat)

def zero : Binary64 := ⟨false, 0, by decide⟩

def isZero (x : Binary64) : Bool := x.magnitude == 0

/-- The same magnitude under the given sign. -/
def withSign (negative : Bool) (x : Binary64) : Binary64 := { x with negative }

/-- Numerical equality: the two zeros are equal. -/
def sameValue (x y : Binary64) : Bool :=
  x.magnitude == y.magnitude && (x.negative == y.negative || x.magnitude == 0)

/-- A double counted in patterns from zero, downwards under the negative sign. Both zeros are 0. -/
def rank (x : Binary64) : Int := if x.negative then -x.magnitude else x.magnitude

/-- Numerical order. -/
def less (x y : Binary64) : Bool := x.rank < y.rank

/-- The 64-bit pattern. -/
def bits (x : Binary64) : Nat := x.magnitude + if x.negative then 2048 * binade else 0

/-! ## Rounding -/

/-- The integer nearest to `num / den`; a tie goes to the even one. -/
def roundHalfEven (num den : Nat) : Nat :=
  let low := num / den
  let twice := 2 * (num % den)
  if twice < den ∨ (twice = den ∧ low % 2 = 0) then low else low + 1

/-- The largest `e` with `2 ^ e ≤ num / den`, for positive `num` and `den`. -/
def binaryExponent (num den : Nat) : Int :=
  let guess : Int := (Nat.log2 num : Int) - Nat.log2 den
  if num * Nat.pow 2 (-guess).toNat < den * Nat.pow 2 guess.toNat then guess - 1 else guess

/-- The magnitude nearest to `num / den`, or none where that is beyond the largest double. In units
of the last place the value is rounded to an integer; counted from the start of its binade, that
integer is the bit pattern, also where rounding carries into the next binade. -/
def nearest? (negative : Bool) (num den : Nat) : Option Binary64 :=
  if num = 0 then some (zero.withSign negative)
  else
    let unit := max (binaryExponent num den - 52) (-1074)
    let m := roundHalfEven (num * Nat.pow 2 (-unit).toNat) (den * Nat.pow 2 unit.toNat)
    let magnitude := (unit + 1074).toNat * binade + m
    if h : magnitude < 2047 * binade then some ⟨negative, magnitude, h⟩ else none

/-! ## Arithmetic on magnitudes -/

/-- The double nearest to `n / d`. Its callers stay far below the largest double. -/
def ofRatio (n d : Nat) : Binary64 := (nearest? false n d).getD zero

/-- The product, with the sign of the first factor. -/
def mul? (x y : Binary64) : Option Binary64 :=
  nearest? x.negative (x.fraction.1 * y.fraction.1) (x.fraction.2 * y.fraction.2)

/-- The quotient, with the sign of the dividend. -/
def div? (x y : Binary64) : Option Binary64 :=
  nearest? x.negative (x.fraction.1 * y.fraction.2) (x.fraction.2 * y.fraction.1)

/-- The power of ten, correctly rounded; `k` is at most 308. -/
def powerOfTen (k : Nat) : Binary64 := ofRatio (Nat.pow 10 k) 1

end Binary64

end ExportDiff
