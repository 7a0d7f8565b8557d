/-!
The names the library speaks in: transactions and objects, the two kinds of access, and the
three algorithms.
-/

namespace Isolation

/-- Transactions are numbered from 1 in the order in which they begin. -/
abbrev TxnId := Nat

abbrev Timestamp := Nat

/-- The bound of 64-bit numbers. -/
def wordBound : Nat := Nat.pow 2 64

/-- Objects are named by arbitrary text. -/
abbrev ObjectId := String

inductive Action where
  | read
  | write
  deriving DecidableEq

def Action.name : Action → String
  | .read => "read"
  | .write => "write"

inductive Algorithm where
  | lock
  | timestamp
  | validation
  deriving DecidableEq

def Algorithm.name : Algorithm → String
  | .lock => "lock"
  | .timestamp => "timestamp"
  | .validation => "validation"

end Isolation
