import Isolation.Toml.Scalar
/-!
TOML documents: which names a text defines, and whether it may.

A name is defined once. A header opens a table, a dotted key opens the tables on its way; a table
that was only passed through may still be opened by a header of its own, and one that dotted keys
made may not.
-/

namespace Isolation.Toml

/-- Texts are kept; of all other values it is only known that they are no texts. -/
inductive Value where
  | text (content : String)
  | other

/-- A step from a table into it: to a name, or to a member of an array of tables. -/
inductive Step where
  | name (name : String)
  | member (index : Nat)
  deriving DecidableEq

abbrev Place := List Step

inductive Kind where
  | value (value : Value)
  /-- Whether the table was only passed through, and whether dotted keys made it. -/
  | table (passed dotted : Bool)
  | tables (count : Nat)

structure Document where
  kinds : List (Place × Kind) := []

namespace Document

def kind? (document : Document) (place : Place) : Option Kind :=
  document.kinds.lookup place

def put (document : Document) (place : Place) (kind : Kind) : Document :=
  { kinds := (place, kind) :: document.kinds }

def isDotted (document : Document) (place : Place) : Bool :=
  match document.kind? place with
  | some (.table _ dotted) => dotted
  | _ => false

/-- Goes from a table through tables, opening those that are not there. -/
def descend (dotted : Bool) (document : Document) (place : Place) :
    List String → Option (Place × Document)
  | [] => some (place, document)
  | name :: rest =>
      let next := place ++ [.name name]
      match document.kind? next with
      | none => descend dotted (document.put next (.table true dotted)) next rest
      | some (.value _) => none
      | some (.tables count) => descend dotted document (next ++ [.member (count - 1)]) rest
      | some (.table passed _) =>
          if dotted && !passed then none else descend dotted document next rest

/-- Defines a value under a key, seen from a table. -/
def define (document : Document) (table : Place) (key : List String) (value : Value) :
    Option Document := do
  let last ← key.getLast?
  let (place, document) ← document.descend true table key.dropLast
  guard (document.isDotted place != key.dropLast.isEmpty)
  let place := place ++ [.name last]
  guard (document.kind? place).isNone
  return document.put place (.value value)

/-- Opens a table by a header. -/
def openTable (document : Document) (key : List String) : Option (Place × Document) := do
  let last ← key.getLast?
  let (place, document) ← document.descend false [] key.dropLast
  let place := place ++ [.name last]
  match document.kind? place with
  | none => return (place, document.put place (.table false false))
  | some (.table true false) => return (place, document.put place (.table false false))
  | _ => none

/-- Opens another member of an array of tables by a header. -/
def openMember (document : Document) (key : List String) : Option (Place × Document) := do
  let last ← key.getLast?
  let (place, document) ← document.descend false [] key.dropLast
  let place := place ++ [.name last]
  match document.kind? place with
  | none => return (place ++ [.member 0], document.put place (.tables 1))
  | some (.tables count) =>
      return (place ++ [.member count], document.put place (.tables (count + 1)))
  | _ => none

end Document

mutual

/-- Reads a value. What nests in it may still be `depth` levels deep. -/
def readValue : Nat → Nat → List Char → Option (Value × List Char)
  | 0, _, _ => none
  | fuel + 1, depth, text =>
      match text with
      | '[' :: rest => do
          guard (0 < depth)
          let rest ← skipItems fuel (depth - 1) (skipSpace rest.length rest)
          return (.other, rest)
      | '\x7b' :: rest => do
          guard (0 < depth)
          match skipBlanks rest with
          | '\x7d' :: rest => return (.other, rest)
          | rest =>
              let rest ← skipMembers fuel (depth - 1) {} rest
              return (.other, rest)
      | text =>
          match text.head? with
          | some '"' | some '\'' =>
              (readString text).map fun (content, rest) => (.text (String.ofList content), rest)
          | _ => (skipScalar text).map fun rest => (.other, rest)

/-- Recognizes the items of an array, the last of which a comma may follow. -/
def skipItems : Nat → Nat → List Char → Option (List Char)
  | 0, _, _ => none
  | _, _, ']' :: rest => some rest
  | fuel + 1, depth, text => do
      let (_, rest) ← readValue fuel depth text
      match skipSpace rest.length rest with
      | ',' :: rest => skipItems fuel depth (skipSpace rest.length rest)
      | ']' :: rest => return rest
      | _ => none

/-- Recognizes the members of a table on one line, each of which defines a name of its own. -/
def skipMembers : Nat → Nat → Document → List Char → Option (List Char)
  | 0, _, _, _ => none
  | fuel + 1, depth, members, text => do
      let (key, rest) ← readKey text
      let rest ← skipChar (· = '=') rest
      let (value, rest) ← readValue fuel depth (skipBlanks rest)
      let members ← members.define [] key value
      match skipBlanks rest with
      | ',' :: rest => skipMembers fuel depth members rest
      | '\x7d' :: rest => return rest
      | _ => none

end

namespace Document

/-- Reads a header after its opening bracket. -/
def readHeader (document : Document) : List Char → Option (Place × Document × List Char)
  | '[' :: text => do
      let (key, rest) ← readKey text
      let rest ← skipWord "]]" rest
      let (place, document) ← document.openMember key
      return (place, document, ← readTrailing rest)
  | text => do
      let (key, rest) ← readKey text
      let rest ← skipWord "]" rest
      let (place, document) ← document.openTable key
      return (place, document, ← readTrailing rest)

/-- Reads a line that defines a value. -/
def readDefinition (document : Document) (table : Place) (text : List Char) :
    Option (Document × List Char) := do
  let (key, rest) ← readKey text
  let rest ← skipChar (· = '=') rest
  let (value, rest) ← readValue (2 * rest.length + 1) (depthBound - 1) (skipBlanks rest)
  let rest ← readTrailing rest
  return (← document.define table key value, rest)

/-- Reads lines under the header that was opened last. Every line is shorter than the text. -/
def readLines : Nat → Document → Place → List Char → Option Document
  | 0, _, _, _ => none
  | fuel + 1, document, table, text =>
      match skipBlanks text with
      | [] => some document
      | '[' :: rest => do
          let (table, document, rest) ← document.readHeader rest
          readLines fuel document table rest
      | '#' :: rest => do readLines fuel document table (← readTrailing ('#' :: rest))
      | '\n' :: rest => readLines fuel document table rest
      | '\r' :: rest => do readLines fuel document table (← readLineEnd ('\r' :: rest))
      | text => do
          let (document, rest) ← document.readDefinition table text
          readLines fuel document table rest

/-- Reads a text, which a byte order mark may precede. -/
def ofText? (text : String) : Option Document :=
  match text.toList with
  | '\ufeff' :: rest => readLines (rest.length + 1) {} [] rest
  | chars => readLines (chars.length + 1) {} [] chars

/-- What a name at the top of the document stands for. -/
def top? (document : Document) (name : String) : Option Kind :=
  document.kind? [.name name]

end Document

end Isolation.Toml
