import Std.Data.ExtTreeMap
import Isolation.Ledger.Record
/-!
The ledger of optimistic concurrency control: access records and the list of committed transactions.

No access is refused. A commit is validated once, against all transactions that committed before; then
the transaction is appended to the list of the committed, or its record is removed. One clock assigns
the times of the first touch, the validation and the finish.
-/

namespace Isolation

structure Ledger where
  clock : Timestamp := 0
  records : Std.ExtTreeMap TxnId AccessRecord := ∅
  committed : List TxnId := []

namespace Ledger

def record? (ledger : Ledger) (id : TxnId) : Option AccessRecord :=
  ledger.records[id]?

def put (ledger : Ledger) (id : TxnId) (record : AccessRecord) : Ledger :=
  { ledger with records := ledger.records.insert id record }

/-- The record of a transaction. The first touch creates it with the current time as its start. -/
def touch (ledger : Ledger) (id : TxnId) : AccessRecord × Ledger :=
  match ledger.record? id with
  | some record => (record, ledger)
  | none =>
      let record : AccessRecord := { start := ledger.clock + 1 }
      (record, { ledger.put id record with clock := ledger.clock + 1 })

def access (ledger : Ledger) (id : TxnId) (object : ObjectId) (action : Action) : Ledger :=
  let (record, ledger) := ledger.touch id
  ledger.put id (record.note object action)

/-- The conflicts with committed transactions, in commit order. -/
def conflicts (ledger : Ledger) (record : AccessRecord) (validation : Timestamp) : Conflicts :=
  ledger.committed.flatMap fun id =>
    match ledger.record? id with
    | some other =>
        if other.validation.any (· < validation) then record.against validation id other else []
    | none => []

/-- Validates a transaction: without conflicts it is committed, otherwise its record is removed. -/
def validate (ledger : Ledger) (id : TxnId) : Conflicts × Ledger :=
  let (record, ledger) := ledger.touch id
  let validation := ledger.clock + 1
  let found := ledger.conflicts record validation
  if found.isValid then
    let finish := validation + 1
    let final := { record with validation := some validation, finish := some finish }
    (found, { ledger.put id final with clock := finish, committed := ledger.committed ++ [id] })
  else
    (found, { ledger with clock := validation, records := ledger.records.erase id })

/-- Removes the record of a transaction that is not committed. -/
def discard (ledger : Ledger) (id : TxnId) : Ledger :=
  if id ∈ ledger.committed then ledger
  else { ledger with records := ledger.records.erase id }

end Ledger

end Isolation
