import Isolation.Error
import Isolation.Value
/-!
Transactions: name, status, timestamp and logged rows.
-/

namespace Isolation

structure Transaction where
  id : TxnId
  status : Status := .active
  timestamp : Option Timestamp := none
  log : List Row := []
  deriving DecidableEq

namespace Transaction

/-- The age of a transaction without a timestamp, which is the youngest one. -/
def unassignedAge : Timestamp := wordBound - 1

/-- Smaller ages are older. -/
def age (txn : Transaction) : Timestamp :=
  txn.timestamp.getD unassignedAge

def isActive (txn : Transaction) : Bool :=
  txn.status = .active

def isCommitted (txn : Transaction) : Bool :=
  txn.status = .committed

def isAborted (txn : Transaction) : Bool :=
  txn.status.isAborted

/-- Moves along an edge of the lifecycle graph. -/
def moveTo (txn : Transaction) (target : Status) : Except TransitionError Transaction :=
  if txn.status.canBecome target then .ok { txn with status := target }
  else .error (.illegal txn.id txn.status target)

end Transaction

/-- A transaction in the course of a call, with the statuses that it has moved to so far. -/
structure Course where
  txn : Transaction
  passed : List Status := []

namespace Course

def moveTo (course : Course) (target : Status) : Except TransitionError Course :=
  match course.txn.moveTo target with
  | .ok txn => .ok { txn, passed := course.passed ++ [txn.status] }
  | .error reason => .error reason

/-- A move that leaves the course unchanged if it is illegal. -/
def tryMoveTo (course : Course) (target : Status) : Course :=
  match course.moveTo target with
  | .ok next => next
  | .error _ => course

/-- One step towards `aborted`. -/
def stepBack (course : Course) : Course :=
  match course.txn.status.stepBack? with
  | none => course
  | some target => course.tryMoveTo target

/-- The steps to `aborted`. Two suffice: by `stepBack_forceAbort` a third one has no effect. -/
def forceAbort (course : Course) : Course :=
  course.stepBack.stepBack

theorem stepBack_forceAbort (course : Course) : course.forceAbort.stepBack = course.forceAbort := by
  obtain ⟨⟨id, status, timestamp, log⟩, passed⟩ := course
  cases status <;> rfl

end Course

namespace Transaction

/-- The initial course of a transaction. -/
def course (txn : Transaction) : Course :=
  { txn }

/-- Aborts a transaction unless it is committed or terminated. -/
def forceAbort (txn : Transaction) : Transaction :=
  txn.course.forceAbort.txn

/-- Assigns the timestamp of a transaction that has none. Zero encodes the absence of a timestamp,
so assigning it succeeds without an effect. -/
def assign (txn : Transaction) (timestamp : Timestamp) : Except TransitionError Transaction :=
  match txn.timestamp with
  | some current => .error (.stamped txn.id current)
  | none => .ok { txn with timestamp := if timestamp = 0 then none else some timestamp }

def append (txn : Transaction) (row : Row) : Transaction :=
  { txn with log := txn.log ++ [row] }

/-- The operations on a transaction through its handle. -/
inductive Touch where
  | moveTo (target : Status)
  | forceAbort
  | assign (timestamp : Timestamp)
  | append (row : Row)

/-- Applies an operation to a transaction. -/
def touch (txn : Transaction) : Touch → Except TransitionError Transaction
  | .moveTo target => txn.moveTo target
  | .forceAbort => .ok txn.forceAbort
  | .assign timestamp => txn.assign timestamp
  | .append row => .ok (txn.append row)

end Transaction

end Isolation
