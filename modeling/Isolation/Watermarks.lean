import Std.Data.ExtTreeMap
import Isolation.Names
/-!
Watermarks: the largest timestamps that have read and written each object, initially zero.

An access violates the order if it is a read below the write mark, or a write below the read mark or
the write mark. The read mark is compared first.
-/

namespace Isolation

structure Marks where
  read : Timestamp := 0
  write : Timestamp := 0
  deriving DecidableEq

/-- The order violations of an access, with its timestamp and the violated mark. -/
inductive Violation where
  | readTooLate (timestamp written : Timestamp)
  | writeAfterRead (timestamp read : Timestamp)
  | writeTooLate (timestamp written : Timestamp)
  deriving DecidableEq

def Violation.message : Violation → String
  | .readTooLate timestamp written =>
      s!"read at TS {timestamp} is older than write timestamp {written}"
  | .writeAfterRead timestamp read =>
      s!"write at TS {timestamp} is older than read timestamp {read}"
  | .writeTooLate timestamp written =>
      s!"write at TS {timestamp} is older than write timestamp {written}"

namespace Marks

def raise (marks : Marks) (action : Action) (timestamp : Timestamp) : Marks :=
  match action with
  | .read => { marks with read := max marks.read timestamp }
  | .write => { marks with write := max marks.write timestamp }

/-- The violation of an access, if there is one. -/
def violation? (marks : Marks) (action : Action) (timestamp : Timestamp) : Option Violation :=
  match action with
  | .read => if timestamp < marks.write then some (.readTooLate timestamp marks.write) else none
  | .write =>
      if timestamp < marks.read then some (.writeAfterRead timestamp marks.read)
      else if timestamp < marks.write then some (.writeTooLate timestamp marks.write)
      else none

end Marks

structure Watermarks where
  marks : Std.ExtTreeMap ObjectId Marks := ∅

namespace Watermarks

def of (watermarks : Watermarks) (object : ObjectId) : Marks :=
  watermarks.marks[object]?.getD {}

def raise (watermarks : Watermarks) (object : ObjectId) (action : Action)
    (timestamp : Timestamp) : Watermarks :=
  { marks := watermarks.marks.insert object ((watermarks.of object).raise action timestamp) }

/-- An access without a violation raises its mark. -/
def check (watermarks : Watermarks) (object : ObjectId) (action : Action)
    (timestamp : Timestamp) : Except Violation Watermarks :=
  match (watermarks.of object).violation? action timestamp with
  | some violation => .error violation
  | none => .ok (watermarks.raise object action timestamp)

end Watermarks

end Isolation
