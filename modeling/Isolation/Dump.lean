import Isolation.Controller
import Isolation.Text.Quoted
/-!
A dump shows the inside of an engine at rest: one without live transactions, under which no object
was ever locked.
-/

namespace Isolation.Dump

/-- A record with named fields. -/
def record (name : String) (fields : List (String × String)) : String :=
  name ++ " \x7b " ++ ", ".intercalate (fields.map fun (field, shown) => field ++ ": " ++ shown) ++
    " \x7d"

def wrapped (name inner : String) : String :=
  name ++ "(" ++ inner ++ ")"

def braced (entries : List String) : String :=
  "\x7b" ++ ", ".intercalate entries ++ "\x7d"

def bracketed (entries : List String) : String :=
  "[" ++ ", ".intercalate entries ++ "]"

def guarded (inner : String) : String :=
  record "Mutex" [("data", inner)]

def optional : Option Nat → String
  | none => "None"
  | some number => wrapped "Some" (toString number)

def truth (value : Bool) : String :=
  if value then "true" else "false"

def name (id : TxnId) : String :=
  wrapped "TxnId" (toString id)

def noneLive : String :=
  record "TransactionTable" [("live", braced [])]

def counters (counters : Counters) : String :=
  record "StatsRecorder"
    [("begun", toString counters.begun), ("committed", toString counters.committed),
      ("aborted", toString counters.aborted), ("refusals", toString counters.refusals),
      ("wounds", toString counters.wounds)]

def watermarks (last : TxnId) (watermarks : Watermarks) : String :=
  let entry : ObjectId × Marks → String := fun (object, marks) =>
    Text.quoted object ++ ": " ++
      record "Watermarks" [("read", toString marks.read), ("write", toString marks.write)]
  record "TimestampManager"
    [("next", toString last), ("table", guarded (braced (watermarks.marks.toList.map entry)))]

def accessRecord (access : AccessRecord) : String :=
  let objects (set : ObjectSet) : String := braced (set.toList.map Text.quoted)
  record "ValidationRecord"
    [("start_ts", toString access.start), ("validation_ts", optional access.validation),
      ("finish_ts", optional access.finish), ("read_set", objects access.reads),
      ("write_set", objects access.writes)]

/-- Records and sets are listed in ascending order. -/
def ledger (ledger : Ledger) : String :=
  let entry : TxnId × AccessRecord → String := fun (id, access) =>
    name id ++ ": " ++ accessRecord access
  record "ValidationManager"
    [("ledger", guarded (record "Ledger"
      [("clock", toString ledger.clock), ("records", braced (ledger.records.toList.map entry)),
        ("committed", bracketed (ledger.committed.map name))]))]

/-- A locking engine shows no counters, and whether it holds a recovery log. -/
def locking (engine : Engine Locking) : String :=
  record "LockBasedProtocol"
    [("transactions", noneLive), ("locks", record "LockManager" [("table", braced [])]),
      ("clock", watermarks engine.last {}), ("recovery", truth engine.books.recovery.isSome)]

def ordering (engine : Engine Watermarks) : String :=
  record "TimestampOrderingProtocol"
    [("transactions", noneLive), ("timestamps", watermarks engine.last engine.books),
      ("stats", counters engine.counters)]

def optimistic (engine : Engine Ledger) : String :=
  record "OptimisticProtocol"
    [("transactions", noneLive), ("validation", ledger engine.books),
      ("next_txn_id", toString engine.last), ("stats", counters engine.counters)]

end Isolation.Dump

namespace Isolation

def Running.dump : Running → String
  | .lock engine => Dump.wrapped "Lock" (Dump.locking engine)
  | .timestamp engine => Dump.wrapped "Timestamp" (Dump.ordering engine)
  | .validation engine => Dump.wrapped "Validation" (Dump.optimistic engine)

def Running.isAtRest : Running → Bool
  | .lock engine => engine.roster.live.isEmpty && engine.books.table.entries.isEmpty
  | .timestamp engine => engine.roster.live.isEmpty
  | .validation engine => engine.roster.live.isEmpty

def Controller.dump? (controller : Controller) : Option String :=
  if controller.running.isAtRest then
    some (Dump.record "ConcurrencyControlManager"
      [("engine", controller.running.dump), ("initialized", Dump.truth controller.started)])
  else none

end Isolation
