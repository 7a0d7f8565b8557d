import Isolation.Json.Numeral
import Isolation.Status
import Isolation.Value
/-!
How the domain's types are written as JSON and read back. A case of an inductive type is written
by its name, as the name of a single member when it carries something; a structure is an object,
and is also read from an array of its fields.
-/

namespace Isolation.Json

/-! Writing -/

def escaped (c : Char) : List Char :=
  if c = '"' then ['\\', '"']
  else if c = '\\' then ['\\', '\\']
  else if c = '\x08' then ['\\', 'b']
  else if c = '\x0c' then ['\\', 'f']
  else if c = '\n' then ['\\', 'n']
  else if c = '\r' then ['\\', 'r']
  else if c = '\t' then ['\\', 't']
  else if c.toNat < 32 then
    ['\\', 'u', '0', '0', Nat.digitChar (c.toNat / 16), Nat.digitChar (c.toNat % 16)]
  else [c]

def string (text : String) : String :=
  String.ofList ('"' :: text.toList.flatMap escaped ++ ['"'])

def array (items : List String) : String :=
  "[" ++ ",".intercalate items ++ "]"

def object (members : List (String × String)) : String :=
  "\x7b" ++ ",".intercalate (members.map fun (name, value) => string name ++ ":" ++ value) ++
    "\x7d"

/-! Reading -/

def text? : Tree → Option String
  | .string pieces => (spelled? pieces).map String.ofList
  | _ => none

def bool? : Tree → Option Bool
  | .bool value => some value
  | _ => none

def natural? : Tree → Option Nat
  | .number number => number.natural?
  | _ => none

def integer? : Tree → Option Int
  | .number number => number.integer?
  | _ => none

def binary64? : Tree → Option Binary64
  | .number number => number.binary64?
  | _ => none

def byte? (tree : Tree) : Option UInt8 := do
  let value ← natural? tree
  guard (value < 256)
  return UInt8.ofNat value

def listOf? {α : Type} (read : Tree → Option α) : Tree → Option (List α)
  | .array items => items.mapM read
  | _ => none

/-- A case that carries nothing: its name, or an object that gives it null. -/
def caseName? : Tree → Option String
  | .object [(name, .null)] => (spelled? name).map String.ofList
  | tree => text? tree

def caseOf? {α : Type} (cases : List (String × α)) (tree : Tree) : Option α := do
  cases.lookup (← caseName? tree)

end Isolation.Json

/-! The domain -/

namespace Isolation

def Action.cases : List (String × Action) :=
  [("Read", .read), ("Write", .write)]

def Algorithm.cases : List (String × Algorithm) :=
  [("lock", .lock), ("timestamp", .timestamp), ("validation", .validation)]

def Status.cases : List (String × Status) :=
  [("Active", .active), ("PartiallyCommitted", .partiallyCommitted), ("Committed", .committed),
    ("Failed", .failed), ("Aborted", .aborted), ("Terminated", .terminated)]

/-- The written form of a case that carries nothing. -/
def Json.caseJson {α : Type} [DecidableEq α] (cases : List (String × α)) (value : α) : String :=
  match cases.find? fun (_, other) => value = other with
  | some (name, _) => Json.string name
  | none => "null"

def Action.json (action : Action) : String :=
  Json.caseJson Action.cases action

def Algorithm.json (algorithm : Algorithm) : String :=
  Json.caseJson Algorithm.cases algorithm

def Status.json (status : Status) : String :=
  Json.caseJson Status.cases status

def Value.json : Value → String
  | .null => Json.string "Null"
  | .bool value => Json.object [("Bool", if value then "true" else "false")]
  | .int value => Json.object [("Int", toString value)]
  | .float value => Json.object [("Float", value.json)]
  | .string value => Json.object [("String", Json.string value)]
  | .bytes value => Json.object [("Bytes", Json.array (value.map fun byte => toString byte.toNat))]

def Value.ofCase? (name : String) (tree : Json.Tree) : Option Value :=
  match name with
  | "Bool" => (Json.bool? tree).map .bool
  | "Int" => (Json.integer? tree).map .int
  | "Float" => (Json.binary64? tree).map .float
  | "String" => (Json.text? tree).map .string
  | "Bytes" => (Json.listOf? Json.byte? tree).map .bytes
  | _ => none

def Value.ofJson? (tree : Json.Tree) : Option Value :=
  match Json.caseName? tree, tree with
  | some "Null", _ => some .null
  | _, .object [(name, carried)] => do
      Value.ofCase? (String.ofList (← Json.spelled? name)) carried
  | _, _ => none

def Row.json (row : Row) : String :=
  Json.object [("object_id", Json.string row.object),
    ("columns", Json.array (row.columns.map Value.json))]

/-- The member of a name, which has to be there exactly once. -/
def Json.member? (members : List (String × Json.Tree)) (name : String) : Option Json.Tree :=
  match members.filter (·.1 = name) with
  | [(_, tree)] => some tree
  | _ => none

/-- Members of other names are ignored. -/
def Row.ofJson? : Json.Tree → Option Row
  | .array [object, columns] => do
      return ⟨← Json.text? object, ← Json.listOf? Value.ofJson? columns⟩
  | .object members => do
      let members ← members.mapM fun (name, tree) => do
        return (String.ofList (← Json.spelled? name), tree)
      let object ← Json.member? members "object_id"
      let columns ← Json.member? members "columns"
      return ⟨← Json.text? object, ← Json.listOf? Value.ofJson? columns⟩
  | _ => none

end Isolation
