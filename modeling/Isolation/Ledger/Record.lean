import Std.Data.ExtTreeSet
import Isolation.Names
/-!
Access records of backward validation, and conflicts between them.

A transaction at its validation is compared with a committed one. There is no conflict if the other
transaction finished before this one started, or finished between its start and its validation
without writing an object that it read.
-/

namespace Isolation

abbrev ObjectSet := Std.ExtTreeSet ObjectId

structure AccessRecord where
  start : Timestamp
  validation : Option Timestamp := none
  finish : Option Timestamp := none
  reads : ObjectSet := ∅
  writes : ObjectSet := ∅

/-- A committed transaction that wrote objects read by the validated one. -/
structure Conflict where
  committed : TxnId
  objects : List ObjectId
  deriving DecidableEq

/-- The conflicts of a validation, which is successful if there are none. -/
abbrev Conflicts := List Conflict

def Conflicts.isValid (conflicts : Conflicts) : Bool :=
  conflicts.isEmpty

/-- The message for the first conflict. -/
def Conflicts.summary : Conflicts → String
  | [] => "validation passed"
  | first :: rest =>
      "validation failed: read " ++ ",".intercalate first.objects ++
        s!" written by committed transaction {first.committed} ({rest.length + 1} conflict(s))"

namespace AccessRecord

def note (record : AccessRecord) (object : ObjectId) : Action → AccessRecord
  | .read => { record with reads := record.reads.insert object }
  | .write => { record with writes := record.writes.insert object }

/-- The objects read by the one and written by the other transaction, in ascending order. -/
def missed (record other : AccessRecord) : List ObjectId :=
  other.writes.toList.filter (record.reads.contains ·)

/-- The conflict of a transaction that validates at the given time with a committed one. A
transaction that has not finished by then conflicts regardless of its writes. -/
def against (record : AccessRecord) (validation : Timestamp) (id : TxnId)
    (other : AccessRecord) : Conflicts :=
  match other.finish with
  | none => []
  | some finish =>
      if finish < record.start then []
      else if record.start < finish && finish < validation then
        if (record.missed other).isEmpty then [] else [⟨id, record.missed other⟩]
      else [⟨id, []⟩]

end AccessRecord

end Isolation
