/-!
The lifecycle of a transaction. The legal moves form the graph

    active ──► partiallyCommitted ──► committed ──► terminated
      │                 │
      └──────► failed ◄─┘──► aborted ──► terminated

and no move skips a status.
-/

namespace Isolation

inductive Status where
  | active
  | partiallyCommitted
  | committed
  | failed
  | aborted
  | terminated
  deriving DecidableEq

namespace Status

/-- The edges of the graph. -/
def canBecome : Status → Status → Bool
  | active, partiallyCommitted
  | active, failed
  | partiallyCommitted, committed
  | partiallyCommitted, failed
  | failed, aborted
  | committed, terminated
  | aborted, terminated => true
  | _, _ => false

/-- Requests of failed and aborted transactions are refused. -/
def isAborted : Status → Bool
  | failed
  | aborted => true
  | _ => false

/-- The statuses with an edge to `failed`. -/
def isRunning : Status → Bool
  | active
  | partiallyCommitted => true
  | _ => false

/-- The next status towards `aborted`. There is none from `committed` and `terminated`. -/
def stepBack? : Status → Option Status
  | active
  | partiallyCommitted => some failed
  | failed => some aborted
  | committed
  | aborted
  | terminated => none

def tag : Status → Nat
  | active => 0
  | partiallyCommitted => 1
  | committed => 2
  | failed => 3
  | aborted => 4
  | terminated => 5

/-- Tags beyond the six decode to `terminated`. -/
def ofTag : Nat → Status
  | 0 => active
  | 1 => partiallyCommitted
  | 2 => committed
  | 3 => failed
  | 4 => aborted
  | _ => terminated

theorem ofTag_tag (status : Status) : ofTag status.tag = status := by
  cases status <;> rfl

def name : Status → String
  | active => "ACTIVE"
  | partiallyCommitted => "PARTIALLY_COMMITTED"
  | committed => "COMMITTED"
  | failed => "FAILED"
  | aborted => "ABORTED"
  | terminated => "TERMINATED"

end Status

end Isolation
