import Isolation.Binary64
import Isolation.Toml.Lexeme
/-!
The values of TOML that are no strings: truth values, numbers, dates and times. The settings need
none of them, so they are only recognized; what is no value has to be told from what is one.
-/

namespace Isolation.Toml

/-- Recognizes a fixed word. -/
def skipWord (word : String) (text : List Char) : Option (List Char) :=
  if word.toList.isPrefixOf text then some (text.drop word.length) else none

def skipChar (p : Char → Bool) : List Char → Option (List Char)
  | c :: rest => if p c then some rest else none
  | [] => none

def skipSign (text : List Char) : List Char :=
  (skipChar (fun c => c = '+' || c = '-') text).getD text

/-! Numbers -/

/-- Reads the digits that follow a digit; single underscores may stand between digits. -/
def readMoreDigits (p : Char → Bool) : List Char → List Char × List Char
  | '_' :: c :: rest =>
      if p c then
        let (digits, rest) := readMoreDigits p rest
        (c :: digits, rest)
      else ([], '_' :: c :: rest)
  | c :: rest =>
      if p c then
        let (digits, rest) := readMoreDigits p rest
        (c :: digits, rest)
      else ([], c :: rest)
  | [] => ([], [])

def readDigits (p : Char → Bool) : List Char → Option (List Char × List Char)
  | c :: rest =>
      if p c then
        let (digits, rest) := readMoreDigits p rest
        some (c :: digits, rest)
      else none
  | [] => none

/-- Reads a decimal number after its sign. A zero is followed by no other digit. -/
def readDecimal : List Char → Option (List Char × List Char)
  | '0' :: rest => some (['0'], rest)
  | text => readDigits Char.isDigit text

def valueOf (digits : List Char) : Nat :=
  digits.foldl (fun value c => value * 10 + (c.toNat - '0'.toNat)) 0

def isHexDigit (c : Char) : Bool :=
  (Json.hexDigit? c).isSome

/-- Integers take 64 bits, one of them for the sign. -/
def integerBound : Nat := Nat.pow 2 63

/-- Recognizes digits of another base. -/
def skipBased (base : Nat) (p : Char → Bool) (text : List Char) : Option (List Char) := do
  let (digits, rest) ← readDigits p text
  let value := digits.foldl (fun value c => value * base + (Json.hexDigit? c).getD 0) 0
  guard (value < integerBound)
  return rest

def skipInteger : List Char → Option (List Char)
  | '0' :: 'x' :: rest => skipBased 16 isHexDigit rest
  | '0' :: 'o' :: rest => skipBased 8 (fun c => '0' ≤ c && c ≤ '7') rest
  | '0' :: 'b' :: rest => skipBased 2 (fun c => c = '0' || c = '1') rest
  | text => do
      let (digits, rest) ← readDecimal (skipSign text)
      guard (valueOf digits < integerBound + if text.head? = some '-' then 1 else 0)
      return rest

/-- Whether the binary fraction nearest to `digits * 10 ^ exponent` is an infinity. -/
def isTooLarge (digits : List Char) (exponent : Int) : Bool :=
  let significant := digits.dropWhile (· = '0')
  let leading := exponent + significant.length
  if significant.isEmpty || leading < 308 then false
  else if 310 < leading then true
  else
    (Binary64.ofQuotient false (valueOf significant * Nat.pow 10 exponent.toNat)
      (Nat.pow 10 (-exponent).toNat)).isInfinite

def readExponent : List Char → Option (Int × List Char)
  | c :: rest => do
      guard (c = 'e' || c = 'E')
      let (digits, after) ← readDigits Char.isDigit (skipSign rest)
      let size : Int := valueOf digits
      return (if rest.head? = some '-' then -size else size, after)
  | [] => none

/-- Recognizes a number with a fraction or an exponent. A positive one beyond all finite numbers is
refused; a negative one is not. -/
def skipFraction (text : List Char) : Option (List Char) := do
  let (whole, rest) ← readDecimal (skipSign text)
  let (places, exponent, rest) ←
    match rest with
    | '.' :: rest => do
        let (places, rest) ← readDigits Char.isDigit rest
        match readExponent rest with
        | some (exponent, rest) => pure (places, exponent, rest)
        | none => pure (places, (0 : Int), rest)
    | rest => do
        let (exponent, rest) ← readExponent rest
        pure ([], exponent, rest)
  guard (text.head? = some '-' || !isTooLarge (whole ++ places) (exponent - places.length))
  return rest

def skipSpecial (text : List Char) : Option (List Char) :=
  skipWord "inf" (skipSign text) <|> skipWord "nan" (skipSign text)

/-! Dates and times -/

/-- Reads a number of so many digits, between bounds. -/
def readField (width least most : Nat) (text : List Char) : Option (Nat × List Char) := do
  let digits := text.take width
  guard (digits.length = width && digits.all Char.isDigit)
  let value := valueOf digits
  guard (least ≤ value && value ≤ most)
  return (value, text.drop width)

def daysOf (year month : Nat) : Nat :=
  if month = 2 then
    if year % 4 = 0 && (year % 100 ≠ 0 || year % 400 = 0) then 29 else 28
  else if month = 4 || month = 6 || month = 9 || month = 11 then 30
  else 31

def skipDate (text : List Char) : Option (List Char) := do
  let (year, rest) ← readField 4 0 9999 text
  let (month, rest) ← readField 2 1 12 (← skipChar (· = '-') rest)
  let (_, rest) ← readField 2 1 (daysOf year month) (← skipChar (· = '-') rest)
  return rest

/-- A minute may have a leap second. -/
def skipTime (text : List Char) : Option (List Char) := do
  let (_, rest) ← readField 2 0 23 text
  let (_, rest) ← readField 2 0 59 (← skipChar (· = ':') rest)
  let (_, rest) ← readField 2 0 60 (← skipChar (· = ':') rest)
  match rest with
  | '.' :: places =>
      guard (places.head?.any Char.isDigit)
      return places.dropWhile Char.isDigit
  | rest => return rest

def skipOffset : List Char → Option (List Char)
  | 'Z' :: rest => some rest
  | 'z' :: rest => some rest
  | c :: rest => do
      guard (c = '+' || c = '-')
      let (_, rest) ← readField 2 0 23 rest
      let (_, rest) ← readField 2 0 59 (← skipChar (· = ':') rest)
      return rest
  | [] => none

/-- Recognizes the time after a date, with its offset. -/
def skipTimeOfDay (text : List Char) : Option (List Char) := do
  let rest ← skipChar (fun c => c = 'T' || c = 't' || c = ' ') text
  let rest ← skipTime rest
  return (skipOffset rest).getD rest

def skipMoment (text : List Char) : Option (List Char) :=
  match skipDate text with
  | some rest => some ((skipTimeOfDay rest).getD rest)
  | none => skipTime text

/-- Recognizes a value that is neither a string nor made of other values. -/
def skipScalar (text : List Char) : Option (List Char) :=
  skipWord "true" text <|> skipWord "false" text <|> skipMoment text <|> skipFraction text <|>
    skipSpecial text <|> skipInteger text

end Isolation.Toml
