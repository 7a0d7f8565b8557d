import Isolation.Discipline.Locking
import Isolation.Discipline.Ordering
import Isolation.Discipline.Optimistic
/-!
The controller: a running engine, which a switch of the algorithm replaces, and a flag by which calls
are accepted.
-/

namespace Isolation

/-- The running engine, under one of the three disciplines. -/
inductive Running where
  | lock (engine : Engine Locking)
  | timestamp (engine : Engine Watermarks)
  | validation (engine : Engine Ledger)

namespace Running

/-- A new engine. Only locking engines hold the recovery log. -/
def fresh (recovery : Option RecoveryLog) : Algorithm → Running
  | .lock => .lock { books := { recovery } }
  | .timestamp => .timestamp Engine.fresh
  | .validation => .validation Engine.fresh

/-- Evaluates a question on the running engine. -/
def ask {α : Type} (running : Running)
    (question : {β : Type} → [Discipline β] → Engine β → α) : α :=
  match running with
  | lock engine => question engine
  | timestamp engine => question engine
  | validation engine => question engine

/-- Runs an operation of the engine that returns an answer. -/
def act {α : Type} (running : Running)
    (action : {β : Type} → [Discipline β] → Engine β → α × Engine β) : α × Running :=
  match running with
  | lock engine => let (answer, engine) := action engine; (answer, lock engine)
  | timestamp engine => let (answer, engine) := action engine; (answer, timestamp engine)
  | validation engine => let (answer, engine) := action engine; (answer, validation engine)

/-- Runs an operation of the engine. -/
def change (running : Running)
    (action : {β : Type} → [Discipline β] → Engine β → Engine β) : Running :=
  match running with
  | lock engine => lock (action engine)
  | timestamp engine => timestamp (action engine)
  | validation engine => validation (action engine)

def algorithm : Running → Algorithm
  | lock _ => .lock
  | timestamp _ => .timestamp
  | validation _ => .validation

end Running

structure Controller where
  running : Running
  started : Bool := false
  recovery : Option RecoveryLog := none

namespace Controller

def ofAlgorithm (algorithm : Algorithm) (recovery : Option RecoveryLog) : Controller :=
  { running := Running.fresh recovery algorithm, recovery }

def ofName (name : String) : Except Error Controller :=
  (Algorithm.ofName name).map (ofAlgorithm · none)

def algorithm (controller : Controller) : Algorithm :=
  controller.running.algorithm

def start (controller : Controller) : Controller :=
  { controller with started := true }

/-- Removes every live transaction of the running engine. -/
def clear (controller : Controller) : Controller :=
  { controller with running := controller.running.change Engine.shutdown }

@[simp] theorem clear_started (controller : Controller) :
    controller.clear.started = controller.started := rfl

@[simp] theorem clear_recovery (controller : Controller) :
    controller.clear.recovery = controller.recovery := rfl

/-- Removes every live transaction and stops accepting work. -/
def shutdown (controller : Controller) : Controller :=
  { controller.clear with started := false }

/-- Clears the engine and replaces it by a new one of another algorithm. The counter of the new
engine starts at zero, so its transactions are numbered from 1. -/
def switchTo (controller : Controller) (algorithm : Algorithm) : Controller :=
  if controller.algorithm = algorithm then controller
  else
    let cleared := controller.clear
    { cleared with running := Running.fresh cleared.recovery algorithm }

def begin (controller : Controller) : Except Error TxnId × Controller :=
  if controller.started then
    let (id, running) := controller.running.act fun engine => engine.begin
    (.ok id, { controller with running })
  else (.error .notStarted, controller)

def access (controller : Controller) (object : ObjectId) (id : TxnId) (action : Action) :
    Verdict × Controller :=
  if controller.started then
    let (verdict, running) := controller.running.act fun engine => engine.access object id action
    (verdict, { controller with running })
  else (.refused .notStarted, controller)

def accessAll (controller : Controller) (objects : List ObjectId) (id : TxnId)
    (action : Action) : Verdict × Controller :=
  if controller.started then
    let (verdict, running) :=
      controller.running.act fun engine => engine.accessAll objects id action
    (verdict, { controller with running })
  else (.refused .notStarted, controller)

def finish (controller : Controller) (id : TxnId) (commit : Bool) :
    Except Error Bool × Controller :=
  if controller.started then
    let (outcome, running) := controller.running.act fun engine => engine.finish id commit
    (outcome, { controller with running })
  else (.error .notStarted, controller)

def log (controller : Controller) (id : TxnId) (row : Row) : Controller :=
  if controller.started then
    { controller with running := controller.running.change fun engine => engine.log id row }
  else controller

def logged (controller : Controller) (id : TxnId) : List Row :=
  controller.running.ask fun engine => engine.logged id

def status? (controller : Controller) (id : TxnId) : Option Status :=
  controller.running.ask fun engine => engine.status? id

def timestamp? (controller : Controller) (id : TxnId) : Option Timestamp :=
  controller.running.ask fun engine => engine.timestamp? id

/-- The names of the live transactions, ascending. -/
def active (controller : Controller) : List TxnId :=
  controller.running.ask fun engine => engine.roster.ids

def counters (controller : Controller) : Counters :=
  controller.running.ask fun engine => engine.counters

end Controller

end Isolation
