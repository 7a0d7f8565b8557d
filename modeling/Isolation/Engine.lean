import Isolation.Counters
import Isolation.Discipline
/-!
Engines: the lifecycle of transactions under a discipline.

A transaction begins as active. When it ends it is removed from the roster, terminated, and counted
as committed if it requested a commit, was not aborted before and is accepted by the discipline, and
as aborted otherwise. In both cases the discipline removes it from its books.
-/

namespace Isolation

structure Engine (β : Type) where
  roster : Roster := {}
  /-- The number of the last transaction begun. -/
  last : TxnId := 0
  counters : Counters := {}
  books : β

namespace Engine

variable {β : Type}

def fresh [Discipline β] : Engine β :=
  { books := Discipline.empty }

def begin [Discipline β] (engine : Engine β) : TxnId × Engine β :=
  let id := engine.last + 1
  let timestamp := if Discipline.stamps β then some id else none
  (id, { engine with
    roster := engine.roster.add { id, timestamp }
    last := id
    counters := engine.counters.countBegin })

/-- Adds a live transaction of the given name, without a timestamp. -/
def insert (engine : Engine β) (id : TxnId) : Engine β :=
  { engine with roster := engine.roster.add { id } }

/-- Requests an access for a transaction. -/
def access [Discipline β] (engine : Engine β) (object : ObjectId) (id : TxnId)
    (action : Action) : Verdict × Engine β :=
  match engine.roster.find? id with
  | none => (.refused .unknown,
      { engine with counters := engine.counters.countVerdict (.refused .unknown) })
  | some (handle, txn) =>
      let (verdict, scene) :=
        Discipline.judge ⟨engine.roster.made, engine.books⟩ handle txn object action
      (verdict, { engine with
        roster := { engine.roster with made := scene.made }
        counters := engine.counters.countVerdict verdict
        books := scene.books })

/-- Requests several objects in order, up to the first refusal. The verdict is that of the last
request, and the given one if there is none. -/
def accessFrom [Discipline β] (verdict : Verdict) (engine : Engine β) (id : TxnId)
    (action : Action) : List ObjectId → Verdict × Engine β
  | [] => (verdict, engine)
  | object :: rest =>
      let (verdict, engine) := engine.access object id action
      if verdict.isAllowed then accessFrom verdict engine id action rest else (verdict, engine)

def accessAll [Discipline β] (engine : Engine β) (objects : List ObjectId) (id : TxnId)
    (action : Action) : Verdict × Engine β :=
  accessFrom (.allowed .nothingAsked) engine id action objects

/-- The result of walking a transaction to its end. -/
structure Ending (β : Type) where
  outcome : Except TransitionError Bool
  course : Course
  books : β

/-- The transaction at the end of the walk. -/
def Ending.txn (ending : Ending β) : Transaction :=
  ending.course.txn

/-- Aborts a transaction and terminates it. -/
def rollBack (books : β) (course : Course) : Ending β :=
  match course.forceAbort.moveTo .terminated with
  | .ok course => { outcome := .ok false, course, books }
  | .error reason => { outcome := .error reason, course := course.forceAbort, books }

/-- A commit that fails at an illegal move: a transaction that is aborted by then is rolled back. -/
def giveUp (books : β) (course : Course) (reason : TransitionError) : Ending β :=
  if course.txn.isAborted then rollBack books course
  else { outcome := .error reason, course, books }

/-- The moves of a commit after the discipline has accepted it. -/
def settle (books : β) (course : Course) : Ending β :=
  match course.moveTo .committed with
  | .error reason => giveUp books course reason
  | .ok committed =>
      match committed.moveTo .terminated with
      | .ok course => { outcome := .ok true, course, books }
      | .error reason => { outcome := .error reason, course := committed, books }

/-- Walks a transaction to its end. A commit moves to `partiallyCommitted`, where the discipline
decides, and through `committed`. -/
def conclude [Discipline β] (books : β) (txn : Transaction) (commit : Bool) : Ending β :=
  if !commit || txn.isAborted then rollBack books txn.course
  else
    match txn.course.moveTo .partiallyCommitted with
    | .error reason => giveUp books txn.course reason
    | .ok course =>
        match Discipline.accept books txn.id with
        | (false, books) => rollBack books course
        | (true, books) => settle books course

/-- Ends a live transaction and answers whether it committed. A transaction that cannot be moved to
its end is removed from the roster without being counted. -/
def finish [Discipline β] (engine : Engine β) (id : TxnId) (commit : Bool) :
    Except Error Bool × Engine β :=
  match engine.roster.find? id with
  | none => (.error (.unknownTransaction id), engine)
  | some (handle, txn) =>
      let ending := conclude engine.books txn commit
      let left := { engine with
        roster := (engine.roster.put handle ending.txn).remove id
        books := Discipline.leave ending.books id }
      match ending.outcome with
      | .error reason => (.error (.invalidTransition reason), left)
      | .ok committed =>
          (.ok committed, { left with counters := engine.counters.countEnd committed })

/-- Appends a row to the log of a live transaction. -/
def log (engine : Engine β) (id : TxnId) (row : Row) : Engine β :=
  match engine.roster.find? id with
  | none => engine
  | some (handle, txn) => { engine with roster := engine.roster.put handle (txn.append row) }

def logged (engine : Engine β) (id : TxnId) : List Row :=
  ((engine.roster.get? id).map Transaction.log).getD []

def status? (engine : Engine β) (id : TxnId) : Option Status :=
  (engine.roster.get? id).map Transaction.status

def timestamp? (engine : Engine β) (id : TxnId) : Option Timestamp :=
  (engine.roster.get? id).bind Transaction.timestamp

/-- Terminates a transaction, after aborting it unless it is committed. An illegal transition is
ignored. -/
def expel (txn : Transaction) : Course :=
  if txn.isCommitted then txn.course.tryMoveTo .terminated
  else txn.course.forceAbort.tryMoveTo .terminated

/-- Removes a live transaction, terminated and counted by whether it was committed. -/
def evict [Discipline β] (engine : Engine β) (id : TxnId) : Engine β :=
  match engine.roster.find? id with
  | none => engine
  | some (handle, txn) =>
      { engine with
        roster := (engine.roster.put handle (expel txn).txn).remove id
        counters := engine.counters.countEnd txn.isCommitted
        books := Discipline.leave engine.books id }

/-- Removes every live transaction, in ascending order. -/
def shutdown [Discipline β] (engine : Engine β) : Engine β :=
  engine.roster.ids.foldl evict engine

/-- Applies an operation to the transaction with the given handle, live or not. -/
def touch (engine : Engine β) (handle : Handle) (touch : Transaction.Touch) :
    Option (Except TransitionError Transaction) × Engine β :=
  match engine.roster.made[handle]? with
  | none => (none, engine)
  | some txn =>
      match txn.touch touch with
      | .error reason => (some (.error reason), engine)
      | .ok txn => (some (.ok txn), { engine with roster := engine.roster.put handle txn })

end Engine

end Isolation
