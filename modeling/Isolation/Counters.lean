import Isolation.Verdict
/-!
The counters of an engine.
-/

namespace Isolation

structure Counters where
  begun : Nat := 0
  committed : Nat := 0
  aborted : Nat := 0
  refusals : Nat := 0
  wounds : Nat := 0
  deriving DecidableEq

namespace Counters

/-- The number of transactions that have begun and have not been counted as ended. -/
def inFlight (counters : Counters) : Nat :=
  counters.begun - (counters.committed + counters.aborted)

def countBegin (counters : Counters) : Counters :=
  { counters with begun := counters.begun + 1 }

def countEnd (counters : Counters) (committed : Bool) : Counters :=
  if committed then { counters with committed := counters.committed + 1 }
  else { counters with aborted := counters.aborted + 1 }

/-- Counts a refusal and its victims. -/
def countVerdict (counters : Counters) (verdict : Verdict) : Counters :=
  if verdict.isAllowed then counters
  else
    { counters with
      refusals := counters.refusals + 1
      wounds := counters.wounds + verdict.victims.length }

end Counters

end Isolation
