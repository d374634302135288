/-!
# Binary floating-point numbers of double width

A number is its 64 bits. All arithmetic is exact on naturals and rounds once, to the
nearest number and in a tie to the one with the even significand.
-/

namespace GuestBridge

/-- A floating-point number of double width, given by its bits. -/
structure Binary64 where
  bits : UInt64
  deriving DecidableEq, Repr, Inhabited

namespace Binary64

/-- Whether the sign bit is set. -/
def negative (x : Binary64) : Bool :=
  0x8000000000000000 ≤ x.bits.toNat

/-- The exponent field. -/
def exponentField (x : Binary64) : Nat :=
  x.bits.toNat / 0x10000000000000 % 0x800

/-- The fraction field. -/
def fractionField (x : Binary64) : Nat :=
  x.bits.toNat % 0x10000000000000

/-- Not a number. -/
def isNaN (x : Binary64) : Bool :=
  x.exponentField = 2047 && x.fractionField ≠ 0

/-- An infinity. -/
def isInfinite (x : Binary64) : Bool :=
  x.exponentField = 2047 && x.fractionField = 0

/-- Neither an infinity nor not a number. -/
def isFinite (x : Binary64) : Bool :=
  x.exponentField ≠ 2047

/-- One of the two zeros. -/
def isZero (x : Binary64) : Bool :=
  x.exponentField = 0 && x.fractionField = 0

/-- The significand of a finite number: a number is its significand times two to its
exponent, up to the sign. -/
def significand (x : Binary64) : Nat :=
  if x.exponentField = 0 then x.fractionField else x.fractionField + 0x10000000000000

/-- The exponent of a finite number. -/
def exponent (x : Binary64) : Int :=
  if x.exponentField = 0 then -1074 else (x.exponentField : Int) - 1075

/-- The number with the given sign whose other bits are given. -/
def ofMagnitude (negative : Bool) (magnitude : Nat) : Binary64 :=
  ⟨UInt64.ofNat (magnitude + if negative then 0x8000000000000000 else 0)⟩

/-- Zero with a sign. -/
def zero (negative : Bool) : Binary64 :=
  ofMagnitude negative 0

/-- Infinity with a sign. -/
def infinity (negative : Bool) : Binary64 :=
  ofMagnitude negative (2047 * 0x10000000000000)

/-- The number that stands for none. -/
def nan : Binary64 :=
  ⟨0x7FF8000000000000⟩

/-- The whole number nearest to a quotient; a tie goes to the even neighbour. -/
def roundQuotient (num den : Nat) : Nat :=
  let q := num / den
  let r := 2 * (num % den)
  if r < den then q
  else if den < r then q + 1
  else if q % 2 = 0 then q else q + 1

/-- A natural times a power of two, as numerator and denominator. -/
def scaled (n : Nat) (e : Int) : Nat × Nat :=
  (n * Nat.pow 2 e.toNat, Nat.pow 2 (-e).toNat)

/-- The exponent of the power of two just below or at a positive quotient. -/
def floorLog2 (num den : Nat) : Int :=
  let k : Int := (Nat.log2 num : Int) - Nat.log2 den
  let (n, d) := scaled num (-k)
  if den * d ≤ n then k else k - 1

/-- The number nearest to a quotient, with the given sign. -/
def ofRatio (negative : Bool) (num den : Nat) : Binary64 :=
  if num = 0 then zero negative
  else
    let unit := max (floorLog2 num den - 52) (-1074)
    let (n, d) := scaled num (-unit)
    let significand := roundQuotient n (den * d)
    let magnitude := (unit + 1074).toNat * 0x10000000000000 + significand
    ofMagnitude negative (min magnitude (2047 * 0x10000000000000))

/-- The number nearest to a natural times a power of two, with the given sign. -/
def ofScaled (negative : Bool) (n : Nat) (e : Int) : Binary64 :=
  let (num, den) := scaled n e
  ofRatio negative num den

/-- The number nearest to a natural. -/
def ofNat (n : Nat) : Binary64 :=
  ofRatio false n 1

/-- The number nearest to an integer. -/
def ofInt (n : Int) : Binary64 :=
  ofRatio (n < 0) n.natAbs 1

/-- The number with the other sign. -/
def neg (x : Binary64) : Binary64 :=
  ofMagnitude (!x.negative) (x.bits.toNat % 0x8000000000000000)

/-- The product of two finite numbers. -/
def mul (x y : Binary64) : Binary64 :=
  ofScaled (x.negative != y.negative) (x.significand * y.significand) (x.exponent + y.exponent)

/-- The quotient of a finite number by a finite number that is not zero. -/
def div (x y : Binary64) : Binary64 :=
  let (num, den) := scaled x.significand (x.exponent - y.exponent)
  ofRatio (x.negative != y.negative) num (den * y.significand)

/-- Equality of numbers: the zeros are equal, and what is not a number equals nothing. -/
def same (x y : Binary64) : Bool :=
  !x.isNaN && !y.isNaN && (x.bits = y.bits || (x.isZero && y.isZero))

/-- The number with the given bits of single width. -/
def ofSingle (bits : UInt32) : Binary64 :=
  let n := bits.toNat
  let negative := 0x80000000 ≤ n
  let field : Nat := n / 0x800000 % 0x100
  let fraction : Nat := n % 0x800000
  if field = 255 then
    if fraction = 0 then infinity negative else nan
  else if field = 0 then ofScaled negative fraction (-149)
  else ofScaled negative (fraction + 0x800000) ((field : Int) - 150)

/-- The integer part of a finite number, toward zero. -/
def truncate (x : Binary64) : Int :=
  let (num, den) := scaled x.significand x.exponent
  let n := num / den
  if x.negative then -(n : Int) else n

/-- A finite number without fractional part. -/
def isIntegral (x : Binary64) : Bool :=
  let (num, den) := scaled x.significand x.exponent
  x.isFinite && decide (num % den = 0)

/-- The 64-bit integer nearest to the integer part of a finite number. -/
def toInt64 (x : Binary64) : Int64 :=
  Int64.ofInt (max Int64.minValue.toInt (min Int64.maxValue.toInt x.truncate))

end Binary64

end GuestBridge
