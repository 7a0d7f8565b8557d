import Isolation.Binary64
/-!
The shortest decimal that reads back as a given number, and its written forms.

The reals that round to a number form an interval around it. On the grid of the multiples of a
power of ten, the interval holds a point only if it holds one of the number's two neighbours; so
the coarsest grid on which a neighbour lies in the interval gives the fewest digits.
-/

namespace Isolation.Binary64

/-- Which of two equally near decimals is taken. -/
inductive Tie where
  | upward
  | even

/-- The decimal `digits * 10 ^ exponent`. -/
structure Decimal where
  digits : Nat
  exponent : Int

/-- A number between its two boundaries, as numerators over one denominator. A boundary reads back
as the number iff the number's significand is even. -/
structure Interval where
  below : Nat
  value : Nat
  above : Nat
  denominator : Nat
  closed : Bool

/-- The boundaries lie halfway to the next numbers. Below a power of two the next number is twice
as near, unless the scale is already the smallest. -/
def interval (x : Binary64) : Interval :=
  let unit := Nat.pow 2 x.scale
  let gap := if x.significand = leadingBit && 0 < x.scale then 1 else 2
  { below := (4 * x.significand - gap) * unit
    value := 4 * x.significand * unit
    above := (4 * x.significand + 2) * unit
    denominator := 4 * Binary64.denominator
    closed := x.significand % 2 = 0 }

namespace Interval

/-- The numerators in units of a power of ten. -/
def inUnitsOf (range : Interval) (exponent : Int) : Interval :=
  { range with
    below := range.below * Nat.pow 10 (-exponent).toNat
    value := range.value * Nat.pow 10 (-exponent).toNat
    above := range.above * Nat.pow 10 (-exponent).toNat
    denominator := range.denominator * Nat.pow 10 exponent.toNat }

def holds (range : Interval) (point : Nat) : Bool :=
  let raised := point * range.denominator
  if range.closed then range.below ≤ raised && raised ≤ range.above
  else range.below < raised && raised < range.above

/-- The neighbour of the value that lies in the interval, the nearer one of two. -/
def neighbour? (range : Interval) (tie : Tie) : Option Nat :=
  let floor := range.value / range.denominator
  match range.holds floor, range.holds (floor + 1) with
  | false, false => none
  | true, false => some floor
  | false, true => some (floor + 1)
  | true, true =>
      let twice := 2 * range.value
      let middle := (2 * floor + 1) * range.denominator
      if twice < middle then some floor
      else if middle < twice then some (floor + 1)
      else
        match tie with
        | .upward => some (floor + 1)
        | .even => some (floor + floor % 2)

/-- Tries ever finer grids, from the one of `10 ^ exponent` down. -/
def search (range : Interval) (tie : Tie) : Nat → Int → Decimal
  | 0, exponent => ⟨range.value / range.denominator, exponent⟩
  | tries + 1, exponent =>
      match (range.inUnitsOf exponent).neighbour? tie with
      | some digits => ⟨digits, exponent⟩
      | none => search range tie tries (exponent - 1)

end Interval

/-- A power of ten above the number. -/
def coarsest (x : Binary64) : Int :=
  ((x.significand.log2 : Int) + x.scale - 1073) * 30103 / 100000 + 1

/-- Seventeen digits always read back, so the search ends long before its last try. -/
def shortest (x : Binary64) (tie : Tie) : Decimal :=
  x.interval.search tie 20 x.coarsest

def zeros (count : Nat) : List Char :=
  List.replicate count '0'

/-- Positional notation: a point only where there are places after it. -/
def Decimal.positional (number : Decimal) : List Char :=
  let digits := Nat.toDigits 10 number.digits
  let places := (-number.exponent).toNat
  if places = 0 then digits ++ zeros number.exponent.toNat
  else if places < digits.length then
    digits.take (digits.length - places) ++ '.' :: digits.drop (digits.length - places)
  else '0' :: '.' :: zeros (places - digits.length) ++ digits

/-- Notation with one digit before the point and a power of ten, with its sign, after it. -/
def Decimal.scientific (number : Decimal) : List Char :=
  let digits := Nat.toDigits 10 number.digits
  let power := number.exponent + (digits.length - 1 : Nat)
  let places := digits.drop 1
  let sign := if power < 0 then '-' else '+'
  digits.take 1 ++ (if places.isEmpty then [] else '.' :: places) ++
    'e' :: sign :: Nat.toDigits 10 power.natAbs

end Isolation.Binary64
