import Isolation.Names
import Isolation.Status
import Isolation.Folder
import Isolation.Text.Blank
/-!
Errors. Refused accesses and failed commits are ordinary answers and not errors.
-/

namespace Isolation

/-- An operation that the state of a transaction does not permit. -/
inductive TransitionError where
  | illegal (id : TxnId) (source target : Status)
  | stamped (id : TxnId) (current : Timestamp)
  deriving DecidableEq

def TransitionError.message : TransitionError → String
  | .illegal id source target =>
      s!"Transaction {id}: illegal transition {source.name} -> {target.name}"
  | .stamped id current => s!"Transaction {id}: timestamp already assigned ({current})"

/-- The reasons why settings cannot be read or written. -/
inductive SettingsFault where
  | unreadable (path : String) (fault : FileFault)
  | malformed (path : String)
  | undefaulted (path : String) (fault : FileFault)
  | unwritable (path : String) (fault : FileFault)
  | other (text : String)
  deriving DecidableEq

def SettingsFault.message : SettingsFault → String
  | .unreadable path fault => s!"Failed to read config file '{path}': {fault.message}"
  | .malformed path => s!"Failed to parse config file '{path}'"
  | .undefaulted path fault =>
      s!"Failed to write default config file '{path}': {fault.message}"
  | .unwritable path fault => s!"Failed to write config file '{path}': {fault.message}"
  | .other text => text

inductive Error where
  | unknownTransaction (id : TxnId)
  | invalidTransition (cause : TransitionError)
  | unsupportedAlgorithm (text : String)
  | notStarted
  | settings (fault : SettingsFault)
  deriving DecidableEq

namespace Error

def message : Error → String
  | unknownTransaction id => s!"Unknown transaction: {id}"
  | invalidTransition cause => s!"Invalid transition: {cause.message}"
  | unsupportedAlgorithm text => s!"Unsupported concurrency control algorithm: {text}"
  | notStarted => "Concurrency control manager is not initialized"
  | settings fault => s!"Configuration error: {fault.message}"

/-- The underlying error. -/
def cause? : Error → Option TransitionError
  | invalidTransition cause => some cause
  | _ => none

end Error

/-- Algorithm names are compared up to case and surrounding blanks. -/
def Algorithm.ofName (text : String) : Except Error Algorithm :=
  match String.ofList ((Text.trim text.toList).map Char.toLower) with
  | "lock" | "locking" | "2pl" => .ok .lock
  | "timestamp" | "ts" | "timestamp-ordering" => .ok .timestamp
  | "validation" | "occ" | "optimistic" => .ok .validation
  | _ => .error (.unsupportedAlgorithm text)

end Isolation
