/-!
JSON texts as trees. A tree keeps numbers as they are written and strings as the units they spell,
since what they mean depends on what is wanted of them.
-/

namespace Isolation.Json

/-- A number as it is written, digit by digit. -/
structure Number where
  negative : Bool
  whole : List Nat
  fraction : Option (List Nat) := none
  /-- Whether the exponent is negative, and its digits. -/
  exponent : Option (Bool × List Nat) := none

/-- A part of a string: a character, or a unit of sixteen bits written by its number. -/
inductive Piece where
  | char (c : Char)
  | unit (code : Nat)

inductive Tree where
  | null
  | bool (value : Bool)
  | number (value : Number)
  | string (pieces : List Piece)
  | array (items : List Tree)
  | object (members : List (List Piece × Tree))

/-! A reader takes what it reads off the start of a text, and returns the rest with it. -/

def isBlank (c : Char) : Bool :=
  c = ' ' || c = '\n' || c = '\t' || c = '\r'

def skipBlanks (text : List Char) : List Char :=
  text.dropWhile isBlank

/-! Strings -/

def hexDigit? (c : Char) : Option Nat :=
  if c.isDigit then some (c.toNat - '0'.toNat)
  else if 'a' ≤ c && c ≤ 'f' then some (c.toNat - 'a'.toNat + 10)
  else if 'A' ≤ c && c ≤ 'F' then some (c.toNat - 'A'.toNat + 10)
  else none

def hexNumber? (digits : List Char) : Option Nat :=
  digits.foldlM (fun value c => (hexDigit? c).map (value * 16 + ·)) 0

def escaped? : Char → Option Char
  | '"' => some '"'
  | '\\' => some '\\'
  | '/' => some '/'
  | 'b' => some '\x08'
  | 'f' => some '\x0c'
  | 'n' => some '\n'
  | 'r' => some '\r'
  | 't' => some '\t'
  | _ => none

/-- Reads a string whose opening quote has been read. -/
def readPieces : List Char → Option (List Piece × List Char)
  | [] => none
  | '"' :: rest => some ([], rest)
  | '\\' :: 'u' :: a :: b :: c :: d :: rest => do
      let code ← hexNumber? [a, b, c, d]
      let (pieces, rest) ← readPieces rest
      return (.unit code :: pieces, rest)
  | '\\' :: c :: rest => do
      let plain ← escaped? c
      let (pieces, rest) ← readPieces rest
      return (.char plain :: pieces, rest)
  | c :: rest => do
      guard (c ≠ '\\' && 32 ≤ c.toNat)
      let (pieces, rest) ← readPieces rest
      return (.char c :: pieces, rest)

/-- The characters that pieces spell. A unit that is half of a pair needs its other half. -/
def spelled? : List Piece → Option (List Char)
  | [] => some []
  | .char c :: rest => (spelled? rest).map (c :: ·)
  | .unit code :: rest =>
      if code < 0xD800 || 0xDFFF < code then (spelled? rest).map (Char.ofNat code :: ·)
      else
        match rest with
        | .unit low :: rest =>
            if code < 0xDC00 && 0xDC00 ≤ low && low ≤ 0xDFFF then
              (spelled? rest).map
                (Char.ofNat (0x10000 + (code - 0xD800) * 0x400 + (low - 0xDC00)) :: ·)
            else none
        | _ => none

/-! Numbers -/

def readDigits (text : List Char) : List Nat × List Char :=
  ((text.takeWhile Char.isDigit).map fun c => c.toNat - '0'.toNat, text.dropWhile Char.isDigit)

/-- Reads digits, of which there has to be one. -/
def readSomeDigits (text : List Char) : Option (List Nat × List Char) :=
  let (digits, rest) := readDigits text
  if digits.isEmpty then none else some (digits, rest)

def readFraction : List Char → Option (Option (List Nat) × List Char)
  | '.' :: rest => (readSomeDigits rest).map fun (digits, rest) => (some digits, rest)
  | text => some (none, text)

def readExponent (text : List Char) : Option (Option (Bool × List Nat) × List Char) :=
  let signed : List Char → Option (Option (Bool × List Nat) × List Char)
    | '-' :: rest => (readSomeDigits rest).map fun (digits, rest) => (some (true, digits), rest)
    | '+' :: rest => (readSomeDigits rest).map fun (digits, rest) => (some (false, digits), rest)
    | rest => (readSomeDigits rest).map fun (digits, rest) => (some (false, digits), rest)
  match text with
  | 'e' :: rest => signed rest
  | 'E' :: rest => signed rest
  | _ => some (none, text)

/-- Reads a number after its sign. A zero is followed by no other digit. -/
def readUnsigned (negative : Bool) (text : List Char) : Option (Number × List Char) := do
  let (whole, rest) ← readSomeDigits text
  guard (whole.head? ≠ some 0 || whole.length = 1)
  let (fraction, rest) ← readFraction rest
  let (exponent, rest) ← readExponent rest
  return ({ negative, whole, fraction, exponent }, rest)

def readNumber : List Char → Option (Number × List Char)
  | '-' :: rest => readUnsigned true rest
  | text => readUnsigned false text

/-! Trees -/

/-- Reads a word that stands for a value. -/
def readWord (word : String) (value : Tree) (text : List Char) : Option (Tree × List Char) :=
  if word.toList.isPrefixOf text then some (value, text.drop word.length) else none

/-- Reads a separator between blanks. -/
def readMark (mark : Char) (text : List Char) : Option (List Char) :=
  match skipBlanks text with
  | c :: rest => if c = mark then some rest else none
  | [] => none

mutual

/-- Reads a tree. Every step takes a character off the text, so its length bounds the depth. -/
def readTree : Nat → List Char → Option (Tree × List Char)
  | 0, _ => none
  | fuel + 1, text =>
      match skipBlanks text with
      | '"' :: rest => (readPieces rest).map fun (pieces, rest) => (.string pieces, rest)
      | '[' :: rest =>
          match readMark ']' rest with
          | some rest => some (.array [], rest)
          | none => (readItems fuel rest).map fun (items, rest) => (.array items, rest)
      | '\x7b' :: rest =>
          match readMark '\x7d' rest with
          | some rest => some (.object [], rest)
          | none => (readMembers fuel rest).map fun (members, rest) => (.object members, rest)
      | 'n' :: rest => readWord "null" .null ('n' :: rest)
      | 't' :: rest => readWord "true" (.bool true) ('t' :: rest)
      | 'f' :: rest => readWord "false" (.bool false) ('f' :: rest)
      | rest => (readNumber rest).map fun (number, rest) => (.number number, rest)

def readItems : Nat → List Char → Option (List Tree × List Char)
  | 0, _ => none
  | fuel + 1, text => do
      let (item, rest) ← readTree fuel text
      match readMark ',' rest with
      | some rest =>
          let (items, rest) ← readItems fuel rest
          return (item :: items, rest)
      | none =>
          let rest ← readMark ']' rest
          return ([item], rest)

def readMembers : Nat → List Char → Option (List (List Piece × Tree) × List Char)
  | 0, _ => none
  | fuel + 1, text => do
      let rest ← readMark '"' text
      let (name, rest) ← readPieces rest
      let rest ← readMark ':' rest
      let (value, rest) ← readTree fuel rest
      match readMark ',' rest with
      | some rest =>
          let (members, rest) ← readMembers fuel rest
          return ((name, value) :: members, rest)
      | none =>
          let rest ← readMark '\x7d' rest
          return ([(name, value)], rest)

end

/-- Reads a text that holds one tree and nothing else but blanks. -/
def Tree.ofText? (text : String) : Option Tree := do
  let (tree, rest) ← readTree (2 * text.length + 1) text.toList
  guard (skipBlanks rest).isEmpty
  return tree

end Isolation.Json
