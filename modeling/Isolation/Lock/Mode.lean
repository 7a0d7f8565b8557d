/-!
The two lock modes.
-/

namespace Isolation

inductive LockMode where
  | shared
  | exclusive
  deriving DecidableEq

namespace LockMode

def strength : LockMode → Nat
  | shared => 0
  | exclusive => 1

/-- A lock held in the one mode satisfies requests for the other. -/
def covers (held wanted : LockMode) : Bool :=
  wanted.strength ≤ held.strength

/-- Two locks are compatible only if both are shared. -/
def conflictsWith (held wanted : LockMode) : Bool :=
  held = exclusive || wanted = exclusive

def name : LockMode → String
  | shared => "shared"
  | exclusive => "exclusive"

end LockMode

end Isolation
