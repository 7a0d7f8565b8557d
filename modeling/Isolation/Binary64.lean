/-!
Binary floating-point numbers of 64 bits, kept by their bits: a sign, eleven bits of exponent
and fifty-two of fraction. A finite number is a whole significand times a power of two, so
everything here is exact arithmetic on natural numbers.
-/

namespace Isolation

structure Binary64 where
  bits : UInt64
  deriving DecidableEq

namespace Binary64

/-- The bit that holds the sign. -/
def signBit : Nat := Nat.pow 2 63

/-- The bit above the fraction, which the significands of all but the smallest numbers have. -/
def leadingBit : Nat := Nat.pow 2 52

/-- The smallest positive number is one divided by this. -/
def denominator : Nat := Nat.pow 2 1074

def isNegative (x : Binary64) : Bool :=
  signBit ≤ x.bits.toNat

/-- The bits below the sign, which order the magnitudes. -/
def magnitude (x : Binary64) : Nat :=
  x.bits.toNat % signBit

/-- The magnitude of infinity; the magnitudes above it belong to no number. -/
def infinity : Nat := 2047 * leadingBit

def isNaN (x : Binary64) : Bool :=
  infinity < x.magnitude

def isInfinite (x : Binary64) : Bool :=
  x.magnitude = infinity

def isZero (x : Binary64) : Bool :=
  x.magnitude = 0

/-- Both zeros are equal, and what is no number equals nothing. -/
def equals (x y : Binary64) : Bool :=
  !x.isNaN && !y.isNaN && (x.bits = y.bits || (x.isZero && y.isZero))

/-- A finite number is `significand * 2 ^ scale / denominator`. -/
def significand (x : Binary64) : Nat :=
  if x.magnitude < leadingBit then x.magnitude else x.magnitude % leadingBit + leadingBit

def scale (x : Binary64) : Nat :=
  x.magnitude / leadingBit - 1

def ofMagnitude (negative : Bool) (magnitude : Nat) : Binary64 :=
  ⟨UInt64.ofNat (magnitude + if negative then signBit else 0)⟩

/-- The quotient rounded to the nearest natural number, and to the even one of two. -/
def roundedQuotient (numerator denominator : Nat) : Nat :=
  let below := numerator / denominator
  let rest := numerator % denominator
  if 2 * rest < denominator then below
  else if denominator < 2 * rest then below + 1
  else below + below % 2

/-- The number nearest to a quotient, even significands first; the infinity beyond the largest.
The scale is the smallest at which the significand fits into 53 bits. -/
def ofQuotient (negative : Bool) (numerator denominator : Nat) : Binary64 :=
  let raised := numerator * Binary64.denominator
  let near := raised.log2 - denominator.log2 - 53
  let scale := if raised < denominator * Nat.pow 2 (near + 53) then near else near + 1
  let significand := roundedQuotient raised (denominator * Nat.pow 2 scale)
  ofMagnitude negative (min (scale * leadingBit + significand) infinity)

def ofNat (number : Nat) : Binary64 :=
  ofQuotient false number 1

/-- The magnitude of a finite number over the common denominator. -/
def numerator (x : Binary64) : Nat :=
  x.significand * Nat.pow 2 x.scale

def times (x y : Binary64) : Binary64 :=
  ofQuotient (x.isNegative != y.isNegative) (x.numerator * y.numerator) (denominator * denominator)

/-- The quotient of two finite numbers, the second not zero. -/
def dividedBy (x y : Binary64) : Binary64 :=
  ofQuotient (x.isNegative != y.isNegative) x.numerator y.numerator

def negated (x : Binary64) : Binary64 :=
  ofMagnitude (!x.isNegative) x.magnitude

end Binary64

end Isolation
