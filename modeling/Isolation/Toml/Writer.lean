import Isolation.Toml.Lexeme
/-!
How strings are written in TOML: in the plainest quotes that show the text without escapes, and
with escapes between double quotes where no quotes do.
-/

namespace Isolation.Toml

/-- The longest run of a character. -/
def longestRun (c : Char) (text : List Char) : Nat :=
  let step : Nat × Nat → Char → Nat × Nat := fun (longest, run) other =>
    if other = c then (max longest (run + 1), run + 1) else (longest, 0)
  (text.foldl step (0, 0)).1

/-- Controls that no quotes show as they are. -/
def isControl (c : Char) : Bool :=
  c ≠ '\n' && !isPlain c

inductive Quotes where
  | basic
  | literal
  | basicLines
  | literalLines
  deriving DecidableEq

namespace Quotes

def delimiter : Quotes → List Char
  | basic => ['"']
  | literal => ['\'']
  | basicLines => ['"', '"', '"']
  | literalLines => ['\'', '\'', '\'']

def escapes : Quotes → Bool
  | basic
  | basicLines => true
  | _ => false

def spansLines : Quotes → Bool
  | basicLines
  | literalLines => true
  | _ => false

/-- Whether a text stands between these quotes without any escape but that of a tab. -/
def shows (text : List Char) : Quotes → Bool
  | basic => !text.any isControl && !text.contains '\\' && !text.contains '"' && !text.contains '\n'
  | literal => !text.any isControl && !text.contains '\'' && !text.contains '\n'
  | basicLines => !text.any isControl && !text.contains '\\' && longestRun '"' text ≤ 2
  | literalLines => !text.any isControl && longestRun '\'' text ≤ 2

def plainestFor (text : List Char) : Quotes :=
  match [basic, literal, basicLines, literalLines].find? (shows text) with
  | some quotes => quotes
  | none => if text.contains '\n' then basicLines else basic

end Quotes

def hexDigits (code : Nat) : List Char :=
  let digits := (Nat.toDigits 16 code).map Char.toUpper
  List.replicate (4 - digits.length) '0' ++ digits

def escapedChar (spansLines : Bool) (c : Char) : List Char :=
  if c = '\\' then ['\\', '\\']
  else if c = '\x08' then ['\\', 'b']
  else if c = '\t' then ['\\', 't']
  else if c = '\n' then if spansLines then ['\n'] else ['\\', 'n']
  else if c = '\x0c' then ['\\', 'f']
  else if c = '\r' then ['\\', 'r']
  else if isControl c then '\\' :: 'u' :: hexDigits c.toNat
  else [c]

/-- Escapes a text between double quotes. Where it may span lines, two quotes in a row need no
escape. -/
def escapedFrom (spansLines : Bool) : Nat → List Char → List Char
  | _, [] => []
  | run, '"' :: rest =>
      if run < (if spansLines then 2 else 0) then '"' :: escapedFrom spansLines (run + 1) rest
      else '\\' :: '"' :: escapedFrom spansLines 0 rest
  | _, c :: rest => escapedChar spansLines c ++ escapedFrom spansLines 0 rest

/-- A text that spans lines starts on a line of its own. -/
def written (text : List Char) : List Char :=
  let quotes := Quotes.plainestFor text
  let opening := if quotes.spansLines && text.contains '\n' then ['\n'] else []
  let content := if quotes.escapes then escapedFrom quotes.spansLines 0 text else text
  quotes.delimiter ++ opening ++ content ++ quotes.delimiter

/-- A line that defines a text. -/
def definition (name : String) (text : String) : String :=
  name ++ " = " ++ String.ofList (written text.toList) ++ "\n"

end Isolation.Toml
