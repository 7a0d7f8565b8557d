import Isolation.Lock.Mode
import Isolation.Roster
/-!
The lock table under wound-wait.

A request is decided at once and never blocks. If it conflicts with other holders it is refused: an
older requester wounds the younger holders, which aborts them, and a younger requester has to wait.
A wounded holder keeps its locks until it ends. Since only older transactions wound younger ones,
the waiting relation is acyclic.
-/

namespace Isolation

/-- A lock: the handle and the name of its holder, and its mode. -/
structure Holder where
  handle : Handle
  id : TxnId
  mode : LockMode
  deriving DecidableEq

/-- The outcomes of a lock request. -/
inductive LockOutcome where
  | granted
  | upgraded
  | requesterInactive
  | wounded (victims : List TxnId)
  | wait (blockers : List TxnId)
  deriving DecidableEq

def LockOutcome.isGranted : LockOutcome → Bool
  | .granted
  | .upgraded => true
  | _ => false

/-- The holders of an object, in the order of their first grants, and its cached mode, which every
change of the holders recomputes. -/
structure LockEntry where
  holders : List Holder := []
  mode : Option LockMode := none

/-- The entries of all objects that have been requested. -/
structure LockTable where
  entries : Std.ExtTreeMap ObjectId LockEntry := ∅

/-- The outcome of a request, with the table and the transactions after it. -/
structure LockAttempt where
  outcome : LockOutcome
  table : LockTable
  made : Transactions

namespace LockTable

def entry (table : LockTable) (object : ObjectId) : LockEntry :=
  table.entries[object]?.getD {}

def holders (table : LockTable) (object : ObjectId) : List Holder :=
  (table.entry object).holders

def mode? (table : LockTable) (object : ObjectId) : Option LockMode :=
  (table.entry object).mode

def put (table : LockTable) (object : ObjectId) (entry : LockEntry) : LockTable :=
  { entries := table.entries.insert object entry }

/-- The number of objects that have been requested. -/
def size (table : LockTable) : Nat :=
  table.entries.size

/-- The strongest mode among the holders. -/
def modeOf : List Holder → Option LockMode
  | [] => none
  | holders => some (if holders.any (·.mode = .exclusive) then .exclusive else .shared)

/-- The mode in which a name holds a lock among the holders. -/
def heldBy (holders : List Holder) (id : TxnId) : Option LockMode :=
  (holders.find? (·.id = id)).map Holder.mode

/-- The holders with other names whose modes conflict with the request. -/
def conflicting (holders : List Holder) (id : TxnId) (mode : LockMode) : List Holder :=
  holders.filter fun holder => holder.id ≠ id && holder.mode.conflictsWith mode

/-- The holder is strictly younger than the requester and still running. -/
def isVictim (made : Transactions) (age : Timestamp) (holder : Holder) : Bool :=
  made[holder.handle]?.any fun txn => age < txn.age && txn.status.isRunning

def wound (made : Transactions) (victims : List Holder) : Transactions :=
  victims.foldl (fun made victim => made.modify victim.handle Transaction.forceAbort) made

def upgrade (holders : List Holder) (id : TxnId) : List Holder :=
  holders.map fun holder => if holder.id = id then { holder with mode := .exclusive } else holder

end LockTable

namespace LockEntry

/-- Recomputes the cached mode. -/
def recompute (entry : LockEntry) : LockEntry :=
  { entry with mode := LockTable.modeOf entry.holders }

/-- Appends a lock. -/
def push (entry : LockEntry) (holder : Holder) : LockEntry :=
  { entry with holders := entry.holders ++ [holder] }.recompute

/-- Makes the lock of a name exclusive. -/
def upgrade (entry : LockEntry) (id : TxnId) : LockEntry :=
  { holders := LockTable.upgrade entry.holders id, mode := some .exclusive }

/-- Removes the locks of a name and counts them. Without such a lock the mode is not recomputed. -/
def release (entry : LockEntry) (id : TxnId) : Nat × LockEntry :=
  let left := { entry with holders := entry.holders.filter (·.id ≠ id) }
  let dropped := entry.holders.length - left.holders.length
  (dropped, if 0 < dropped then left.recompute else left)

end LockEntry

namespace LockTable

/-- Attempts to acquire a lock. Only active transactions are granted one, and every attempt creates
an entry of the object. -/
def acquire (table : LockTable) (made : Transactions) (object : ObjectId) (requester : Handle)
    (mode : LockMode) : LockAttempt :=
  let entry := table.entry object
  let holders := table.holders object
  let leaving (outcome : LockOutcome) (entry : LockEntry) : LockAttempt :=
    { outcome, table := table.put object entry, made }
  match made[requester]? with
  | none => leaving .requesterInactive entry
  | some txn =>
      if !txn.isActive then leaving .requesterInactive entry
      else if (heldBy holders txn.id).any (·.covers mode) then leaving .granted entry
      else if (conflicting holders txn.id mode).isEmpty then
        if (heldBy holders txn.id).isSome then leaving .upgraded (entry.upgrade txn.id)
        else leaving .granted (entry.push { handle := requester, id := txn.id, mode })
      else
        let blockers := conflicting holders txn.id mode
        let victims := blockers.filter (isVictim made txn.age)
        if victims.isEmpty then leaving (.wait (blockers.map Holder.id)) entry
        else
          { leaving (.wounded (victims.map Holder.id)) entry with made := wound made victims }

/-- The number of locks that a release of a name removes. -/
def held (table : LockTable) (id : TxnId) : Nat :=
  table.entries.toList.foldl (fun count place => count + (place.2.release id).1) 0

/-- Removes every lock of a name. -/
def release (table : LockTable) (id : TxnId) : LockTable :=
  { entries := table.entries.map fun _ entry => (entry.release id).2 }

end LockTable

end Isolation
