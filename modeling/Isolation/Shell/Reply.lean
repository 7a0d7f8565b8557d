import Isolation.Counters
import Isolation.Error
/-!
The replies of the shell and their texts.
-/

namespace Isolation.Shell

inductive Reply where
  | began (id : TxnId)
  | answered (isAllowed : Bool) (reason : String)
  | ended (id : TxnId) (committed : Bool)
  | seen (id : TxnId) (status : Option Status)
  | counted (counters : Counters)
  | help
  | farewell

def helpText : String :=
  "\n".intercalate
    ["BEGIN                start a transaction, prints its id",
      "READ <tx> <obj>      ask to read <obj>",
      "WRITE <tx> <obj>     ask to write <obj>",
      "COMMIT <tx>          commit (may abort on conflict)",
      "ABORT <tx>           abort",
      "STATUS <tx>          show transaction status",
      "STATS                show engine counters",
      "EXIT                 leave"]

def Reply.text : Reply → String
  | .began id => s!"BEGIN {id}"
  | .answered true reason => s!"OK {reason}"
  | .answered false reason => s!"REFUSED {reason}"
  | .ended id true => s!"COMMITTED {id}"
  | .ended id false => s!"ABORTED {id}"
  | .seen id (some status) => s!"{id} {status.name}"
  | .seen id none => s!"{id} not live"
  | .counted counters =>
      s!"begun={counters.begun} committed={counters.committed} aborted={counters.aborted} " ++
        s!"in_flight={counters.inFlight} refusals={counters.refusals} wounds={counters.wounds}"
  | .help => helpText
  | .farewell => "BYE"

def errorText (message : String) : String :=
  s!"(error) {message}"

end Isolation.Shell
