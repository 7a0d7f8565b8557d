import Isolation.Lock.Mode
import Isolation.Watermarks
/-!
Verdicts on requests for access, with their reasons.
-/

namespace Isolation

inductive Grant where
  | locked (mode : LockMode)
  | upgraded
  | inOrder (action : Action) (timestamp : Timestamp)
  | recorded (action : Action)
  | nothingAsked
  deriving DecidableEq

inductive Refusal where
  | notStarted
  | unknown
  | aborted
  | inactive
  | unstamped
  | wounded (victims : List TxnId)
  | held (object : ObjectId) (blockers : List TxnId)
  | late (violation : Violation)
  deriving DecidableEq

inductive Verdict where
  | allowed (grant : Grant)
  | refused (refusal : Refusal)
  deriving DecidableEq

def Grant.reason : Grant → String
  | .locked mode => s!"{mode.name} lock granted"
  | .upgraded => "lock upgraded to exclusive"
  | .inOrder action timestamp => s!"{action.name} at TS {timestamp} allowed"
  | .recorded action => s!"{action.name} recorded"
  | .nothingAsked => "no objects"

def listed (ids : List TxnId) : String :=
  ",".intercalate (ids.map toString)

def Refusal.reason : Refusal → String
  | .notStarted => "manager not initialized"
  | .unknown => "unknown transaction"
  | .aborted => "transaction aborted"
  | .inactive => "transaction no longer active"
  | .unstamped => "transaction has no timestamp"
  | .wounded victims => s!"wounded younger holder(s) {listed victims}; retry"
  | .held object blockers => s!"{object} held by older transaction(s) {listed blockers}; retry"
  | .late violation => violation.message

namespace Verdict

def isAllowed : Verdict → Bool
  | allowed _ => true
  | refused _ => false

def reason : Verdict → String
  | allowed grant => grant.reason
  | refused refusal => refusal.reason

/-- The transactions wounded by the request. -/
def victims : Verdict → List TxnId
  | refused (.wounded victims) => victims
  | _ => []

/-- The verdict as a sentence. -/
def announced (isAllowed : Bool) (reason : String) : String :=
  (if isAllowed then "allowed: " else "refused: ") ++ reason

end Verdict

end Isolation
