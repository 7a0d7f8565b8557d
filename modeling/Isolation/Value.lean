import Isolation.Names
import Isolation.Binary64.Shortest
import Isolation.Text.Quoted
/-!
Column values, and the row images that transactions keep in their logs. Nothing here interprets
them; they are stored, compared and shown.
-/

namespace Isolation

inductive Value where
  | null
  | bool (value : Bool)
  | int (value : Int)
  | float (value : Binary64)
  | string (value : String)
  | bytes (value : List UInt8)
  deriving DecidableEq

/-- Floating-point numbers are written positionally, whole ones without a point. -/
def Binary64.shown (x : Binary64) : String :=
  let sign := if x.isNegative then "-" else ""
  if x.isNaN then "NaN"
  else if x.isInfinite then sign ++ "inf"
  else if x.isZero then sign ++ "0"
  else sign ++ String.ofList (x.shortest .upward).positional

namespace Value

/-- Values of different kinds are never equal, and floating-point numbers compare as numbers. -/
def equals : Value → Value → Bool
  | float x, float y => x.equals y
  | x, y => x = y

def shown : Value → String
  | null => "NULL"
  | bool true => "true"
  | bool false => "false"
  | int value => toString value
  | float value => value.shown
  | string value => Text.quoted value
  | bytes value => "<" ++ toString value.length ++ " bytes>"

end Value

/-- The image of one row of an object, in column order. -/
structure Row where
  object : ObjectId
  columns : List Value
  deriving DecidableEq

namespace Row

def width (row : Row) : Nat :=
  row.columns.length

def equals (row other : Row) : Bool :=
  row.object = other.object && row.width = other.width &&
    (row.columns.zip other.columns).all fun (x, y) => x.equals y

def shown (row : Row) : String :=
  row.object ++ "(" ++ ", ".intercalate (row.columns.map Value.shown) ++ ")"

end Row

end Isolation
