import Std.Data.ExtTreeMap
import Isolation.Transaction
/-!
The transactions that an engine has created, and which of them are live.

A transaction keeps its handle, its position in order of creation, after it has ended and after its
name is in use by another transaction.
-/

namespace Isolation

/-- The position of a transaction in order of creation. -/
abbrev Handle := Nat

abbrev Transactions := Array Transaction

structure Roster where
  made : Transactions := #[]
  live : Std.ExtTreeMap TxnId Handle := ∅

namespace Roster

/-- Adds a live transaction. It replaces a live one of the same name. -/
def add (roster : Roster) (txn : Transaction) : Roster :=
  { made := roster.made.push txn
    live := roster.live.insert txn.id roster.made.size }

def handle? (roster : Roster) (id : TxnId) : Option Handle :=
  roster.live[id]?

/-- A live transaction with its handle. -/
def find? (roster : Roster) (id : TxnId) : Option (Handle × Transaction) := do
  let handle ← roster.live[id]?
  let txn ← roster.made[handle]?
  return (handle, txn)

def get? (roster : Roster) (id : TxnId) : Option Transaction :=
  (roster.find? id).map Prod.snd

def remove (roster : Roster) (id : TxnId) : Roster :=
  { roster with live := roster.live.erase id }

def put (roster : Roster) (handle : Handle) (txn : Transaction) : Roster :=
  { roster with made := roster.made.setIfInBounds handle txn }

/-- The names of the live transactions, ascending. -/
def ids (roster : Roster) : List TxnId :=
  roster.live.keys

/-- The live transactions, ascending by name. -/
def snapshot (roster : Roster) : List Transaction :=
  roster.ids.filterMap roster.get?

end Roster

end Isolation
