import Isolation.Controller
/-!
Calls and answers as data, and runs over lists of calls.
-/

namespace Isolation

/-- The operations of an engine. -/
inductive Call where
  | begin
  | access (object : ObjectId) (id : TxnId) (action : Action)
  | accessAll (objects : List ObjectId) (id : TxnId) (action : Action)
  | finish (id : TxnId) (commit : Bool)
  | log (id : TxnId) (row : Row)
  | logged (id : TxnId)
  | look (id : TxnId)
  | active
  | counters
  | shutdown

inductive Answer where
  | done
  | began (outcome : Except Error TxnId)
  | judged (verdict : Verdict)
  | ended (outcome : Except Error Bool)
  | rows (rows : List Row)
  | seen (status : Option Status) (timestamp : Option Timestamp)
  | ids (ids : List TxnId)
  | counted (counters : Counters)

/-- Wraps the result of an operation into an answer. -/
def answered {σ α : Type} (answer : α → Answer) (result : α × σ) : Answer × σ :=
  (answer result.1, result.2)

def Engine.step {β : Type} [Discipline β] (engine : Engine β) : Call → Answer × Engine β
  | .begin => answered (.began ∘ .ok) engine.begin
  | .access object id action => answered .judged (engine.access object id action)
  | .accessAll objects id action => answered .judged (engine.accessAll objects id action)
  | .finish id commit => answered .ended (engine.finish id commit)
  | .log id row => (.done, engine.log id row)
  | .logged id => (.rows (engine.logged id), engine)
  | .look id => (.seen (engine.status? id) (engine.timestamp? id), engine)
  | .active => (.ids engine.roster.ids, engine)
  | .counters => (.counted engine.counters, engine)
  | .shutdown => (.done, engine.shutdown)

/-- The operations of a controller. -/
inductive Controller.Call where
  | start
  | switchTo (algorithm : Algorithm)
  | call (call : Isolation.Call)

def Controller.step (controller : Controller) : Controller.Call → Answer × Controller
  | .start => (.done, controller.start)
  | .switchTo algorithm => (.done, controller.switchTo algorithm)
  | .call .begin => answered .began controller.begin
  | .call (.access object id action) => answered .judged (controller.access object id action)
  | .call (.accessAll objects id action) =>
      answered .judged (controller.accessAll objects id action)
  | .call (.finish id commit) => answered .ended (controller.finish id commit)
  | .call (.log id row) => (.done, controller.log id row)
  | .call (.logged id) => (.rows (controller.logged id), controller)
  | .call (.look id) => (.seen (controller.status? id) (controller.timestamp? id), controller)
  | .call .active => (.ids controller.active, controller)
  | .call .counters => (.counted controller.counters, controller)
  | .call .shutdown => (.done, controller.shutdown)

/-- The answers to a list of calls and the final state. -/
def runWith {σ κ α : Type} (step : σ → κ → α × σ) (state : σ) : List κ → List α × σ
  | [] => ([], state)
  | call :: rest =>
      let (answer, next) := step state call
      let (answers, final) := runWith step next rest
      (answer :: answers, final)

def Engine.run {β : Type} [Discipline β] (engine : Engine β) (calls : List Isolation.Call) :
    List Answer × Engine β :=
  runWith Engine.step engine calls

def Controller.run (controller : Controller) (calls : List Controller.Call) :
    List Answer × Controller :=
  runWith Controller.step controller calls

end Isolation
