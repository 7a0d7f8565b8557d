import Isolation.Json.Tree
/-!
The small parts of TOML texts: blanks, line ends, comments, keys and strings. A reader takes what it
reads off the start of a text, and returns the rest with it.
-/

namespace Isolation.Toml

def isBlank (c : Char) : Bool :=
  c = ' ' || c = '\t'

def skipBlanks (text : List Char) : List Char :=
  text.dropWhile isBlank

/-- Controls other than the tab stand in no string and no comment. -/
def isPlain (c : Char) : Bool :=
  c = '\t' || (32 ≤ c.toNat && c.toNat ≠ 127)

def readLineEnd : List Char → Option (List Char)
  | '\n' :: rest => some rest
  | '\r' :: '\n' :: rest => some rest
  | _ => none

/-- What may follow the last word of a line: a comment, and the end of the line or of the text. -/
def readTrailing (text : List Char) : Option (List Char) :=
  let rest :=
    match skipBlanks text with
    | '#' :: rest => rest.dropWhile isPlain
    | rest => rest
  if rest.isEmpty then some [] else readLineEnd rest

/-- Skips blanks and line ends. -/
def skipLines : List Char → List Char
  | ' ' :: rest => skipLines rest
  | '\t' :: rest => skipLines rest
  | '\n' :: rest => skipLines rest
  | '\r' :: '\n' :: rest => skipLines rest
  | rest => rest

/-- Skips blanks, line ends, and comments that end with their line. -/
def skipSpace : Nat → List Char → List Char
  | 0, text => text
  | fuel + 1, text =>
      match skipLines text with
      | '#' :: rest =>
          match readLineEnd (rest.dropWhile isPlain) with
          | some rest => skipSpace fuel rest
          | none => '#' :: rest
      | rest => rest

/-! Strings -/

def escaped? : Char → Option Char
  | '"' => some '"'
  | '\\' => some '\\'
  | 'b' => some '\x08'
  | 'f' => some '\x0c'
  | 'n' => some '\n'
  | 'r' => some '\r'
  | 't' => some '\t'
  | _ => none

def scalar? (code : Nat) : Option Char :=
  if code.isValidChar then some (Char.ofNat code) else none

/-- Reads an escape after its backslash. -/
def readEscape : List Char → Option (Char × List Char)
  | 'u' :: a :: b :: c :: d :: rest => do
      let code ← Json.hexNumber? [a, b, c, d]
      return (← scalar? code, rest)
  | 'U' :: a :: b :: c :: d :: e :: f :: g :: h :: rest => do
      let code ← Json.hexNumber? [a, b, c, d, e, f, g, h]
      return (← scalar? code, rest)
  | c :: rest => do return (← escaped? c, rest)
  | [] => none

/-- Reads a string between single quotes, where every character stands for itself. -/
def readLiteral : List Char → Option (List Char × List Char)
  | [] => none
  | '\'' :: rest => some ([], rest)
  | c :: rest => do
      guard (isPlain c)
      let (content, rest) ← readLiteral rest
      return (c :: content, rest)

/-- Reads a string between double quotes, where a backslash escapes. -/
def readBasic : Nat → List Char → Option (List Char × List Char)
  | 0, _ => none
  | _, [] => none
  | _, '"' :: rest => some ([], rest)
  | fuel + 1, '\\' :: rest => do
      let (c, rest) ← readEscape rest
      let (content, rest) ← readBasic fuel rest
      return (c :: content, rest)
  | fuel + 1, c :: rest => do
      guard (isPlain c)
      let (content, rest) ← readBasic fuel rest
      return (c :: content, rest)

/-- Three quotes end a string of several lines; up to two more belong to its content. -/
def readClosing (quote : Char) (text : List Char) : Option (List Char × List Char) :=
  let run := text.takeWhile (· = quote)
  if 3 ≤ run.length && run.length ≤ 5 then some (run.drop 3, text.drop run.length) else none

/-- A line end right after the opening quotes is dropped. -/
def dropFirstLineEnd (text : List Char) : List Char :=
  (readLineEnd text).getD text

/-- Reads a literal string of several lines. -/
def readLiteralLines : List Char → Option (List Char × List Char)
  | [] => none
  | '\'' :: '\'' :: '\'' :: rest => readClosing '\'' ('\'' :: '\'' :: '\'' :: rest)
  | '\r' :: '\n' :: rest => do
      let (content, rest) ← readLiteralLines rest
      return ('\n' :: content, rest)
  | c :: rest => do
      guard (isPlain c || c = '\n')
      let (content, rest) ← readLiteralLines rest
      return (c :: content, rest)

/-- Reads a string of several lines in which a backslash escapes, a line end among the rest: it
takes all blanks and line ends after it along. -/
def readBasicLines : Nat → List Char → Option (List Char × List Char)
  | 0, _ => none
  | _, [] => none
  | _, '"' :: '"' :: '"' :: rest => readClosing '"' ('"' :: '"' :: '"' :: rest)
  | fuel + 1, '\r' :: '\n' :: rest => do
      let (content, rest) ← readBasicLines fuel rest
      return ('\n' :: content, rest)
  | fuel + 1, '\\' :: rest =>
      match readLineEnd (skipBlanks rest) with
      | some rest => readBasicLines fuel (skipLines rest)
      | none => do
          let (c, rest) ← readEscape rest
          let (content, rest) ← readBasicLines fuel rest
          return (c :: content, rest)
  | fuel + 1, c :: rest => do
      guard (isPlain c || c = '\n')
      let (content, rest) ← readBasicLines fuel rest
      return (c :: content, rest)

/-- Reads a string of one line. -/
def readQuoted : List Char → Option (List Char × List Char)
  | '"' :: rest => readBasic (rest.length + 1) rest
  | '\'' :: rest => readLiteral rest
  | _ => none

def readString : List Char → Option (List Char × List Char)
  | '"' :: '"' :: '"' :: rest => readBasicLines (rest.length + 1) (dropFirstLineEnd rest)
  | '\'' :: '\'' :: '\'' :: rest => readLiteralLines (dropFirstLineEnd rest)
  | text => readQuoted text

/-! Keys -/

def isBare (c : Char) : Bool :=
  c.isAlphanum || c = '-' || c = '_'

def readName (text : List Char) : Option (String × List Char) :=
  let bare := text.takeWhile isBare
  if bare.isEmpty then (readQuoted text).map fun (name, rest) => (String.ofList name, rest)
  else some (String.ofList bare, text.drop bare.length)

/-- The names of a dotted key lead through tables, so their number is bounded like the depth of
nested values. -/
def depthBound : Nat := 80

/-- Reads a key: names between dots, with blanks around each. -/
def readNames : Nat → List Char → Option (List String × List Char)
  | 0, _ => none
  | fuel + 1, text => do
      let (name, rest) ← readName (skipBlanks text)
      match skipBlanks rest with
      | '.' :: rest =>
          let (names, rest) ← readNames fuel rest
          return (name :: names, rest)
      | rest => return ([name], rest)

def readKey (text : List Char) : Option (List String × List Char) :=
  readNames (depthBound - 1) text

end Isolation.Toml
