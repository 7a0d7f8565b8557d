import Isolation.Binary64.Shortest
import Isolation.Json.Tree
import Isolation.Names
/-!
What the numbers of a JSON text mean, as natural numbers, integers and binary fractions.

Digits are gathered into 64 bits as long as they fit, and only their places count after that; the
gathered number is then scaled by one power of ten. The result may differ in its last bit from the
nearest binary fraction.
-/

namespace Isolation.Json.Number

/-- Integers take half of the words on either side of zero. -/
def integerBound : Nat := Nat.pow 2 63

/-- Gathers digits while they fit; the rest is left over. -/
def gather (value : Nat) : List Nat → Nat × List Nat
  | [] => (value, [])
  | digit :: rest =>
      if value * 10 + digit < wordBound then gather (value * 10 + digit) rest
      else (value, digit :: rest)

/-- The value of a number without fraction and exponent that fits into 64 bits. -/
def magnitude? (number : Number) : Option Nat :=
  match gather 0 number.whole with
  | (value, []) =>
      if number.fraction.isNone && number.exponent.isNone then some value else none
  | _ => none

def natural? (number : Number) : Option Nat :=
  if number.negative then none else number.magnitude?

/-- A negative zero is no integer. -/
def integer? (number : Number) : Option Int :=
  match number.negative, number.magnitude? with
  | false, some value => if value < integerBound then some value else none
  | true, some value => if 0 < value && value ≤ integerBound then some (-value) else none
  | _, none => none

def powerOfTen (exponent : Nat) : Binary64 :=
  .ofNat (Nat.pow 10 exponent)

/-- The exponent of the largest power of ten that is a finite number. -/
def topExponent : Nat := 308

/-- Divides by a power of ten, by the largest finite one as often as needed. -/
def scaleDown (value : Binary64) (exponent : Nat) : Binary64 :=
  if exponent ≤ topExponent then value.dividedBy (powerOfTen exponent)
  else if value.isZero then value
  else scaleDown (value.dividedBy (powerOfTen topExponent)) (exponent - topExponent)
termination_by exponent
decreasing_by simp only [topExponent] at *; omega

/-- Multiplies by a power of ten, unless the product is too large. -/
def scaleUp? (value : Binary64) (exponent : Nat) : Option Binary64 :=
  if value.isZero then some value
  else if topExponent < exponent then none
  else
    let product := value.times (powerOfTen exponent)
    if product.isInfinite then none else some product

def scaled? (value : Nat) (exponent : Int) : Option Binary64 :=
  if 0 ≤ exponent then scaleUp? (.ofNat value) exponent.toNat
  else some (scaleDown (.ofNat value) (-exponent).toNat)

def exponentBound : Nat := Nat.pow 2 31

def exponentValue (digits : List Nat) : Nat :=
  digits.foldl (fun value digit => value * 10 + digit) 0

/-- The magnitude as a binary fraction. An exponent beyond all bounds makes zero of what it makes
small or what was zero. -/
def absolute? (number : Number) : Option Binary64 :=
  let (value, dropped) := gather 0 number.whole
  let places := number.fraction.getD []
  let (value, lost) := gather value places
  let exponent : Int := dropped.length - (places.length - lost.length : Nat)
  match number.exponent with
  | none => scaled? value exponent
  | some (negative, digits) =>
      let size := exponentValue digits
      if exponentBound ≤ size then
        if value = 0 || negative then some ⟨0⟩ else none
      else scaled? value (if negative then exponent - size else exponent + size)

def binary64? (number : Number) : Option Binary64 :=
  (number.absolute?).map fun value => if number.negative then value.negated else value

end Isolation.Json.Number

namespace Isolation.Binary64

/-- Numbers from a hundred-thousandth up to sixteen digits before the point are written
positionally, with a place after the point at least; the others with an exponent. What is no
finite number is null. -/
def json (x : Binary64) : String :=
  let sign := if x.isNegative then "-" else ""
  if x.isNaN || x.isInfinite then "null"
  else if x.isZero then sign ++ "0.0"
  else
    let decimal := x.shortest .even
    let leading : Int := decimal.exponent + (Nat.toDigits 10 decimal.digits).length
    let text :=
      if -5 < leading && leading ≤ 16 then
        decimal.positional ++ if 0 ≤ decimal.exponent then ['.', '0'] else []
      else decimal.scientific
    sign ++ String.ofList text

end Isolation.Binary64
