import Isolation.Proofs.Restart
import Isolation.Proofs.Lifecycle

/-!
The rows logged by transactions. The log of a live transaction consists of the rows of the `log`
calls since its `begin`, in order. No verdict depends on a log: erasing all logs commutes with every
call and preserves every answer that does not contain rows.
-/

namespace Isolation

/-- The row that a call appends to the log of the transaction. -/
def Call.row? (id : TxnId) : Call → Option Row
  | .log target row => if target = id then some row else none
  | _ => none

/-- The call appends to a log. -/
def Call.logs : Call → Bool
  | .log _ _ => true
  | _ => false

/-- The call appends to a log or reads one. -/
def Call.aboutRows : Call → Bool
  | .log _ _ | .logged _ => true
  | _ => false

def Controller.Call.logs : Controller.Call → Bool
  | .call request => request.logs
  | .start | .switchTo _ => false

def Controller.Call.aboutRows : Controller.Call → Bool
  | .call request => request.aboutRows
  | .start | .switchTo _ => false

/-- The answers to the calls that neither append to a log nor read one. -/
def unconcerned (calls : List Controller.Call) (answers : List Answer) : List Answer :=
  ((calls.zip answers).filter fun pair => !pair.1.aboutRows).map Prod.snd

theorem unconcerned_cons (call : Controller.Call) (calls : List Controller.Call) (answer : Answer)
    (answers : List Answer) :
    unconcerned (call :: calls) (answer :: answers) =
      if call.aboutRows then unconcerned calls answers else answer :: unconcerned calls answers := by
  simp only [unconcerned, List.zip_cons_cons, List.filter_cons]
  cases call.aboutRows <;> rfl

namespace Engine

variable {β : Type} [Discipline β] {engine : Engine β} {id : TxnId}

theorem logged_begin (engine : Engine β) : engine.begin.2.logged engine.begin.1 = [] := by
  rw [logged, Roster.get?_eq_bind]
  simp [begin, Roster.add]

theorem logged_access [Discipline.OnlyForcesAborts β] (engine : Engine β) (object : ObjectId)
    (target : TxnId)
    (action : Action) (id : TxnId) :
    (engine.access object target action).2.logged id = engine.logged id := by
  simp only [logged]
  rcases engine.access_get? object target action id with same | aborted
  · rw [same]
  · rw [aborted, Option.map_map]
    have rows : Transaction.log ∘ Transaction.forceAbort = Transaction.log :=
      funext Transaction.forceAbort_log
    rw [rows]

theorem logged_accessFrom [Discipline.OnlyForcesAborts β] (verdict : Verdict) (engine : Engine β)
    (target : TxnId) (action : Action) (objects : List ObjectId) (id : TxnId) :
    (accessFrom verdict engine target action objects).2.logged id = engine.logged id := by
  induction objects generalizing verdict engine with
  | nil => rfl
  | cons object rest ih =>
      simp only [accessFrom]
      split
      · exact (ih _ _).trans (engine.logged_access object target action id)
      · exact engine.logged_access object target action id

theorem Orderly.logged_finish (orderly : engine.Orderly) {target : TxnId} (commit : Bool)
    (different : id ≠ target) : (engine.finish target commit).2.logged id = engine.logged id := by
  cases found : engine.roster.find? target with
  | none => rw [finish_absent found]
  | some entry =>
      rw [logged, (finish_roster found commit).1, orderly.get?_remove found _ different, logged]

theorem Orderly.logged_log (orderly : engine.Orderly) (target : TxnId) (row : Row)
    (live : id ∈ engine.roster.live) :
    (engine.log target row).logged id = engine.logged id ++ (Call.row? id (.log target row)).toList := by
  cases found : engine.roster.find? target with
  | none =>
      have different := (orderly.ne_of_absent found live).symm
      simp only [log, found, Call.row?, if_neg different, Option.toList_none, List.append_nil]
  | some entry =>
      simp only [log, found, logged, orderly.get?_put found]
      by_cases own : id = target
      · subst own
        simp [Call.row?, Roster.get?_of_find? found, Transaction.append]
      · simp [Call.row?, own, Ne.symm own]

/-- Between two states in which a transaction is live, a call appends its row for this transaction
to the log and changes the log in no other way. -/
theorem Orderly.logged_step [Discipline.OnlyForcesAborts β] (orderly : engine.Orderly) (call : Call)
    (before : id ∈ engine.roster.ids) (after : id ∈ (engine.step call).2.roster.ids) :
    (engine.step call).2.logged id = engine.logged id ++ (call.row? id).toList := by
  have live := Roster.mem_ids.mp before
  have unlogged {rows : List Row} (same : rows = engine.logged id) :
      rows = engine.logged id ++ (none : Option Row).toList := by
    rw [same, Option.toList_none, List.append_nil]
  cases call with
  | begin =>
      have bound := (orderly.bounds_of_live live).2
      exact unlogged (congrArg (fun txn => (txn.map Transaction.log).getD [])
        (orderly.get?_begin (by lia)))
  | access object target action => exact unlogged (engine.logged_access object target action id)
  | accessAll objects target action =>
      exact unlogged (logged_accessFrom _ engine target action objects id)
  | finish target commit =>
      have different := ((orderly.mem_live_finish commit).mp (Roster.mem_ids.mp after)).1
      exact unlogged (orderly.logged_finish commit different)
  | log target row => exact orderly.logged_log target row live
  | shutdown =>
      have gone := ((orderly.mem_live_evicts _).mp (Roster.mem_ids.mp after)).1
      exact absurd before gone
  | logged _ | look _ | active | counters => exact unlogged rfl

end Engine

theorem Running.logged_step {running : Running} {asked : List Access} {id : TxnId}
    (accounted : running.Holds (Engine.Accounted asked)) (call : Call)
    (before : id ∈ running.ask fun engine => engine.roster.ids)
    (after : id ∈ (running.change fun engine => (engine.step call).2).ask fun engine =>
      engine.roster.ids) :
    ((running.change fun engine => (engine.step call).2).ask fun engine => engine.logged id) =
      (running.ask fun engine => engine.logged id) ++ (call.row? id).toList := by
  cases running <;>
    obtain ⟨past, sound, _⟩ := accounted <;>
    exact Engine.Orderly.logged_step (Discipline.RefusesOnlyConflicts.chronicle sound).orderly call
      before after

namespace Moment

variable {moment : Moment} {id : TxnId}

def row? (id : TxnId) (moment : Moment) : Option Row :=
  match moment.call with
  | .call call => call.row? id
  | .start | .switchTo _ => none

theorem logged_begun (begun : moment.begun? = some id) : moment.next.logged id = [] := by
  obtain ⟨controller, call⟩ := moment
  obtain ⟨rfl, began⟩ := begun?_eq_some.mp begun
  have started := Controller.started_of_begin began
  rw [Controller.begin_answer started, Except.ok.injEq] at began
  subst began
  simp only [next, Controller.logged, Controller.step_running started]
  cases controller.running <;> exact Engine.logged_begin _

theorem logged_next (sound : moment.controller.Sound) (older : moment.begun? ≠ some id)
    (live : id ∈ moment.next.active) :
    id ∈ moment.controller.active ∧
      moment.next.logged id = moment.controller.logged id ++ (moment.row? id).toList := by
  obtain ⟨controller, call⟩ := moment
  obtain ⟨asked, accounted⟩ := sound.accounted
  rcases (Controller.mem_active_of_step accounted call).mp live with ⟨before, spared⟩ | began
  · refine ⟨before, ?_⟩
    cases call with
    | start => exact (List.append_nil _).symm
    | switchTo target =>
        have same : controller.algorithm = target := of_decide_eq_true spared
        simp [next, row?, ← same, Controller.step_switchTo_self]
    | call request =>
        have running := Controller.step_running (sound.started_of_live before) request
        simp only [next, Controller.active, running] at live
        simp only [next, Controller.logged, running]
        exact Running.logged_step accounted.engine request before live
  · exact absurd (begun?_eq_some.mpr began) older

end Moment

namespace Controller

variable {controller : Controller} {id : TxnId}

/-- The log of the transaction, if it is live, consists of the rows of the moments. -/
def Logged (id : TxnId) (controller : Controller) (past : List Moment) : Prop :=
  id ∈ controller.active → controller.logged id = past.filterMap (Moment.row? id)

theorem Logged.next {moment : Moment} {past : List Moment} (logged : moment.controller.Logged id past)
    (sound : moment.controller.Sound) (older : moment.begun? ≠ some id) :
    moment.next.Logged id (past ++ [moment]) := by
  intro live
  obtain ⟨before, rows⟩ := Moment.logged_next sound older live
  rw [filterMap_concat, rows, logged before]

theorem Sound.logged_since_begun (sound : controller.Sound) (nobody : controller.active = [])
    (id : TxnId) (calls : List Controller.Call) :
    Logged id (controller.run calls).2
      (controller.since (fun moment => moment.begun? = some id) calls) := by
  refine since_induction (P := Logged id) sound ?start ?again ?goesOn calls
  case start =>
      intro live
      rw [nobody] at live
      contradiction
  case again => exact fun moment _ begun _ => Moment.logged_begun (of_decide_eq_true begun)
  case goesOn =>
      exact fun moment past sound older logged => logged.next sound (of_decide_eq_false older)

end Controller

/-! ### Erasure of logs -/

/-- The transaction with an empty log. -/
def Transaction.unlogged (txn : Transaction) : Transaction :=
  { txn with log := [] }

@[simp] theorem Transaction.forceAbort_unlogged (txn : Transaction) :
    txn.unlogged.forceAbort = txn.forceAbort.unlogged := by
  rw [forceAbort_eq, forceAbort_eq]
  rfl

theorem Transaction.moveTo_unlogged (txn : Transaction) (target : Status) :
    txn.unlogged.moveTo target = (txn.moveTo target).map unlogged := by
  unfold moveTo
  split
  · rename_i legal
    rw [if_pos (show txn.status.canBecome target = true from legal)]
    rfl
  · rename_i illegal
    rw [if_neg (show ¬txn.status.canBecome target = true from illegal)]
    rfl

namespace Course

def unlogged (course : Course) : Course :=
  { course with txn := course.txn.unlogged }

theorem moveTo_unlogged (course : Course) (target : Status) :
    course.unlogged.moveTo target = (course.moveTo target).map unlogged := by
  have moved : course.unlogged.txn.moveTo target = (course.txn.moveTo target).map Transaction.unlogged :=
    course.txn.moveTo_unlogged target
  simp only [moveTo, moved]
  cases course.txn.moveTo target <;> rfl

theorem tryMoveTo_unlogged (course : Course) (target : Status) :
    course.unlogged.tryMoveTo target = (course.tryMoveTo target).unlogged := by
  simp only [tryMoveTo, moveTo_unlogged]
  cases course.moveTo target <;> rfl

theorem stepBack_unlogged (course : Course) : course.unlogged.stepBack = course.stepBack.unlogged := by
  have status : course.unlogged.txn.status = course.txn.status := rfl
  simp only [stepBack, status]
  split
  · rfl
  · exact course.tryMoveTo_unlogged _

theorem forceAbort_unlogged (course : Course) :
    course.unlogged.forceAbort = course.forceAbort.unlogged := by
  rw [forceAbort, stepBack_unlogged, stepBack_unlogged, forceAbort]

end Course

namespace Transactions

def unlogged (made : Transactions) : Transactions :=
  made.map Transaction.unlogged

@[simp] theorem getElem?_unlogged (made : Transactions) (handle : Handle) :
    made.unlogged[handle]? = made[handle]?.map Transaction.unlogged :=
  Array.getElem?_map

theorem modify_unlogged (made : Transactions) (handle : Handle) {change : Transaction → Transaction}
    (apart : ∀ txn, change txn.unlogged = (change txn).unlogged) :
    made.unlogged.modify handle change = Transactions.unlogged (made.modify handle change) := by
  refine Array.ext_getElem? fun index => ?_
  rw [Array.getElem?_modify, getElem?_unlogged, getElem?_unlogged, Array.getElem?_modify]
  split
  · rw [Option.map_map, Option.map_map]
    exact congrArg (Option.map · _) (funext apart)
  · rfl

theorem wound_unlogged (made : Transactions) (victims : List Holder) :
    LockTable.wound made.unlogged victims = Transactions.unlogged (LockTable.wound made victims) := by
  unfold LockTable.wound
  induction victims generalizing made with
  | nil => rfl
  | cons victim rest ih =>
      rw [List.foldl_cons, List.foldl_cons,
        modify_unlogged made victim.handle Transaction.forceAbort_unlogged, ih]

end Transactions

def Scene.unlogged {β : Type} (scene : Scene β) : Scene β :=
  { scene with made := scene.made.unlogged }

/-- Judging commutes with the erasure of logs. -/
class Discipline.IgnoresRows (β : Type) [Discipline β] : Prop where
  judge_unlogged : ∀ (scene : Scene β) (handle : Handle) (txn : Transaction) (object : ObjectId)
    (action : Action),
    Discipline.judge scene.unlogged handle txn.unlogged object action =
      (Discipline.judge scene handle txn object action).map id Scene.unlogged

theorem LockTable.acquire_unlogged (table : LockTable) (made : Transactions) (object : ObjectId)
    (requester : Handle) (mode : LockMode) :
    table.acquire made.unlogged object requester mode =
      let attempt := table.acquire made object requester mode
      { attempt with made := attempt.made.unlogged } := by
  have victim (age : Timestamp) (holder : Holder) :
      isVictim made.unlogged age holder = isVictim made age holder := by
    simp only [isVictim, Transactions.getElem?_unlogged, Option.any_map]
    rfl
  simp only [acquire, Transactions.getElem?_unlogged]
  cases made[requester]? with
  | none => rfl
  | some txn =>
      have victims : isVictim made.unlogged txn.unlogged.age = isVictim made txn.age :=
        funext (victim txn.age)
      have active : txn.unlogged.isActive = txn.isActive := rfl
      have name : txn.unlogged.id = txn.id := rfl
      simp only [Option.map_some, victims, active, name, made.wound_unlogged]
      repeat' split
      all_goals rfl

instance : Discipline.IgnoresRows Locking where
  judge_unlogged scene handle txn object action := by
    change Locking.judge scene.unlogged handle txn.unlogged object action =
      (Locking.judge scene handle txn object action).map id Scene.unlogged
    have active : txn.unlogged.isActive = txn.isActive := rfl
    simp only [Locking.judge, Scene.unlogged, LockTable.acquire_unlogged, active]
    split <;> rfl

instance : Discipline.IgnoresRows Watermarks where
  judge_unlogged scene handle txn object action := by
    change Watermarks.judge scene.unlogged handle txn.unlogged object action =
      (Watermarks.judge scene handle txn object action).map id Scene.unlogged
    have aborted : txn.unlogged.isAborted = txn.isAborted := rfl
    have stamped : txn.unlogged.timestamp = txn.timestamp := rfl
    have forced := Transactions.modify_unlogged scene.made handle Transaction.forceAbort_unlogged
    simp only [Watermarks.judge, Scene.unlogged, aborted, stamped, forced]
    repeat' split
    all_goals rfl

instance : Discipline.IgnoresRows Ledger where
  judge_unlogged scene handle txn object action := by
    change Ledger.judge scene.unlogged handle txn.unlogged object action =
      (Ledger.judge scene handle txn object action).map id Scene.unlogged
    have aborted : txn.unlogged.isAborted = txn.isAborted := rfl
    simp only [Ledger.judge, aborted]
    split <;> rfl

namespace Roster

def unlogged (roster : Roster) : Roster :=
  { roster with made := roster.made.unlogged }

theorem find?_unlogged (roster : Roster) (name : TxnId) :
    roster.unlogged.find? name = (roster.find? name).map (Prod.map id Transaction.unlogged) := by
  simp only [find?, unlogged, Transactions.getElem?_unlogged]
  cases roster.live[name]? with
  | none => rfl
  | some handle =>
      simp only [Option.bind_eq_bind, Option.bind_some]
      cases roster.made[handle]? <;> rfl

theorem get?_unlogged (roster : Roster) (name : TxnId) :
    roster.unlogged.get? name = (roster.get? name).map Transaction.unlogged := by
  rw [get?, get?, find?_unlogged, Option.map_map, Option.map_map]
  rfl

theorem put_self {roster : Roster} {handle : Handle} {txn : Transaction}
    (present : roster.made[handle]? = some txn) : roster.put handle txn = roster := by
  obtain ⟨inBounds, here⟩ := Array.getElem?_eq_some_iff.mp present
  simp only [put, Array.setIfInBounds, dif_pos inBounds, ← here, Array.set_getElem_self]

theorem put_unlogged (roster : Roster) (handle : Handle) (txn : Transaction) :
    roster.unlogged.put handle txn.unlogged = (roster.put handle txn).unlogged := by
  simp only [put, unlogged, Transactions.unlogged, Array.map_setIfInBounds]

theorem add_unlogged (roster : Roster) {txn : Transaction} (unlogged : txn.unlogged = txn) :
    roster.unlogged.add txn = (roster.add txn).unlogged := by
  simp only [add, Roster.unlogged, Transactions.unlogged, Array.map_push, unlogged, Array.size_map]

end Roster

namespace Engine

variable {β : Type}

/-- The engine in which every log is empty. -/
def unlogged (engine : Engine β) : Engine β :=
  { engine with roster := engine.roster.unlogged }

def Ending.unlogged (ending : Ending β) : Ending β :=
  { ending with course := ending.course.unlogged }

theorem Ending.txn_unlogged (ending : Ending β) : ending.unlogged.txn = ending.txn.unlogged := rfl

theorem rollBack_unlogged (books : β) (course : Course) :
    rollBack books course.unlogged = (rollBack books course).unlogged := by
  simp only [rollBack, Course.forceAbort_unlogged, Course.moveTo_unlogged]
  cases course.forceAbort.moveTo .terminated <;> rfl

theorem giveUp_unlogged (books : β) (course : Course) (reason : TransitionError) :
    giveUp books course.unlogged reason = (giveUp books course reason).unlogged := by
  have aborted : course.unlogged.txn.isAborted = course.txn.isAborted := rfl
  simp only [giveUp, aborted]
  split
  · exact rollBack_unlogged books course
  · rfl

theorem settle_unlogged (books : β) (course : Course) :
    settle books course.unlogged = (settle books course).unlogged := by
  simp only [settle, Course.moveTo_unlogged]
  cases course.moveTo .committed with
  | error reason => exact giveUp_unlogged books course reason
  | ok committed =>
      simp only [Except.map, Course.moveTo_unlogged]
      cases committed.moveTo .terminated <;> rfl

theorem log_unlogged (engine : Engine β) (id : TxnId) (row : Row) :
    (engine.log id row).unlogged = engine.unlogged := by
  unfold log
  split
  · rfl
  · rename_i handle txn found
    have same : (txn.append row).unlogged = txn.unlogged := rfl
    have present : engine.roster.unlogged.made[handle]? = some txn.unlogged := by
      rw [Roster.unlogged, Transactions.getElem?_unlogged, (Roster.find?_eq_some.mp found).2,
        Option.map_some]
    simp only [unlogged, ← Roster.put_unlogged, same, Roster.put_self present]

variable [Discipline β]

theorem conclude_unlogged (books : β) (txn : Transaction) (commit : Bool) :
    conclude books txn.unlogged commit = (conclude books txn commit).unlogged := by
  have aborted : txn.unlogged.isAborted = txn.isAborted := rfl
  have course : txn.unlogged.course = txn.course.unlogged := rfl
  have name : txn.unlogged.id = txn.id := rfl
  simp only [conclude, aborted, course, name, Course.moveTo_unlogged]
  split
  · exact rollBack_unlogged books txn.course
  · cases txn.course.moveTo .partiallyCommitted with
    | error reason => exact giveUp_unlogged books txn.course reason
    | ok next =>
        simp only [Except.map]
        split
        · exact rollBack_unlogged _ next
        · exact settle_unlogged _ next

theorem begin_unlogged (engine : Engine β) :
    engine.unlogged.begin = engine.begin.map id unlogged := by
  simp only [begin, unlogged]
  rw [Roster.add_unlogged _ rfl]
  rfl

theorem finish_unlogged (engine : Engine β) (target : TxnId) (commit : Bool) :
    engine.unlogged.finish target commit = (engine.finish target commit).map id unlogged := by
  simp only [finish, unlogged, Roster.find?_unlogged]
  cases engine.roster.find? target with
  | none => rfl
  | some entry =>
      obtain ⟨handle, txn⟩ := entry
      simp only [Option.map_some, Prod.map, id, conclude_unlogged, Ending.txn_unlogged,
        Roster.put_unlogged]
      simp only [Ending.unlogged]
      cases (conclude engine.books txn commit).outcome <;> rfl

theorem evict_unlogged (engine : Engine β) (target : TxnId) :
    engine.unlogged.evict target = (engine.evict target).unlogged := by
  simp only [evict, unlogged, Roster.find?_unlogged]
  cases engine.roster.find? target with
  | none => rfl
  | some entry =>
      obtain ⟨handle, txn⟩ := entry
      have left : (expel txn.unlogged).txn = (expel txn).txn.unlogged := by
        rw [expel_txn, expel_txn]
        rfl
      simp only [Option.map_some, Prod.map, id, left, Roster.put_unlogged]
      rfl

theorem shutdown_unlogged (engine : Engine β) : engine.unlogged.shutdown = engine.shutdown.unlogged := by
  change engine.roster.ids.foldl evict engine.unlogged = (engine.roster.ids.foldl evict engine).unlogged
  generalize engine.roster.ids = ids
  induction ids generalizing engine with
  | nil => rfl
  | cons target rest ih => rw [List.foldl_cons, List.foldl_cons, evict_unlogged, ih]

variable [Discipline.IgnoresRows β]

theorem access_unlogged (engine : Engine β) (object : ObjectId) (target : TxnId) (action : Action) :
    engine.unlogged.access object target action =
      (engine.access object target action).map id unlogged := by
  simp only [access, unlogged, Roster.find?_unlogged]
  cases engine.roster.find? target with
  | none => rfl
  | some entry =>
      obtain ⟨handle, txn⟩ := entry
      have judged := Discipline.IgnoresRows.judge_unlogged ⟨engine.roster.made, engine.books⟩ handle
        txn object action
      rw [Scene.unlogged] at judged
      simp only [Option.map_some, Prod.map, id, Roster.unlogged, judged]
      rfl

theorem accessFrom_unlogged (verdict : Verdict) (engine : Engine β) (target : TxnId)
    (action : Action) (objects : List ObjectId) :
    accessFrom verdict engine.unlogged target action objects =
      (accessFrom verdict engine target action objects).map id unlogged := by
  induction objects generalizing verdict engine with
  | nil => rfl
  | cons object rest ih =>
      simp only [accessFrom, access_unlogged, Prod.map, id]
      split
      · exact ih _ _
      · rfl

/-- A call that does not concern rows commutes with the erasure of logs and has the same answer. -/
theorem step_unlogged (engine : Engine β) {call : Call} (quiet : call.aboutRows = false) :
    engine.unlogged.step call = (engine.step call).map id unlogged := by
  cases call with
  | begin => simp only [step, answered, begin_unlogged, Prod.map, id]
  | access object target action => simp only [step, answered, access_unlogged, Prod.map, id]
  | accessAll objects target action =>
      simp only [step, answered, accessAll, accessFrom_unlogged, Prod.map, id]
  | finish target commit => simp only [step, answered, finish_unlogged, Prod.map, id]
  | shutdown => simp only [step, shutdown_unlogged, Prod.map, id]
  | look target =>
      simp only [step, status?, timestamp?, unlogged, Roster.get?_unlogged, Prod.map, id]
      cases engine.roster.get? target <;> rfl
  | active | counters => rfl
  | log _ _ | logged _ => contradiction

end Engine

namespace Running

def unlogged (running : Running) : Running :=
  running.change fun engine => engine.unlogged

theorem algorithm_unlogged (running : Running) : running.unlogged.algorithm = running.algorithm := by
  cases running <;> rfl

theorem log_unlogged (running : Running) (id : TxnId) (row : Row) :
    (running.change fun engine => engine.log id row).unlogged = running.unlogged := by
  cases running <;> simp only [unlogged, change, Engine.log_unlogged]

theorem step_unlogged (running : Running) {call : Call} (quiet : call.aboutRows = false) :
    (running.unlogged.ask fun engine => (engine.step call).1) =
        (running.ask fun engine => (engine.step call).1) ∧
      (running.unlogged.change fun engine => (engine.step call).2) =
        (running.change fun engine => (engine.step call).2).unlogged := by
  constructor <;> cases running <;>
    simp only [unlogged, change, ask, Engine.step_unlogged _ quiet, Prod.map, id]

end Running

namespace Controller

theorem step_recovery (controller : Controller) (call : Controller.Call) :
    (controller.step call).2.recovery = controller.recovery := by
  cases call with
  | start => rfl
  | switchTo target =>
      simp only [step, switchTo]
      split <;> rfl
  | call request =>
      cases started : controller.started <;> cases request <;>
        simp [step, begin, access, accessAll, finish, log, answered, shutdown, started]

/-- The controllers agree up to the logs of their transactions. -/
structure Alike (one other : Controller) : Prop where
  running : one.running.unlogged = other.running.unlogged
  started : one.started = other.started
  recovery : one.recovery = other.recovery

namespace Alike

variable {one other : Controller}

theorem algorithm (alike : Alike one other) : one.algorithm = other.algorithm := by
  rw [Controller.algorithm, Controller.algorithm, ← Running.algorithm_unlogged, alike.running,
    Running.algorithm_unlogged]

theorem log (alike : Alike one other) (id : TxnId) (row : Row) : Alike (one.log id row) other := by
  unfold Controller.log
  split
  · exact ⟨(one.running.log_unlogged id row).trans alike.running, alike.started, alike.recovery⟩
  · exact alike

theorem answer (alike : Alike one other) {call : Isolation.Call} (quiet : call.aboutRows = false) :
    (one.step (.call call)).1 = (other.step (.call call)).1 := by
  have asked : (one.running.ask fun engine => (engine.step call).1) =
      other.running.ask fun engine => (engine.step call).1 := by
    rw [← (one.running.step_unlogged quiet).1, alike.running, (other.running.step_unlogged quiet).1]
  cases started : other.started with
  | true => rw [step_answer (alike.started.trans started), step_answer started, asked]
  | false =>
      rw [step_answer_idle (alike.started.trans started), step_answer_idle started]
      cases call <;> first | exact asked | rfl

theorem next (alike : Alike one other) {call : Isolation.Call} (quiet : call.aboutRows = false) :
    Alike (one.step (.call call)).2 (other.step (.call call)).2 where
  running := by
    have changed : (one.running.change fun engine => (engine.step call).2).unlogged =
        (other.running.change fun engine => (engine.step call).2).unlogged := by
      rw [← (one.running.step_unlogged quiet).2, alike.running, (other.running.step_unlogged quiet).2]
    cases started : other.started with
    | true => rwa [step_running (alike.started.trans started), step_running started]
    | false =>
        rcases step_idle started call with same | rfl
        · rcases step_idle (alike.started.trans started) call with same_one | rfl
          · rw [same, same_one]
            exact alike.running
          · exact changed
        · exact changed
  started := by rw [started_step, started_step, alike.started]
  recovery := by rw [step_recovery, step_recovery, alike.recovery]

theorem step (alike : Alike one other) {call : Controller.Call} (quiet : call.aboutRows = false) :
    (one.step call).1 = (other.step call).1 ∧ Alike (one.step call).2 (other.step call).2 := by
  cases call with
  | start => exact ⟨rfl, alike.running, rfl, alike.recovery⟩
  | switchTo target =>
      refine ⟨rfl, ?_⟩
      simp only [Controller.step, switchTo, clear_recovery, alike.algorithm, alike.recovery]
      split
      · exact alike
      · exact ⟨rfl, alike.started, rfl⟩
  | call request => exact ⟨alike.answer quiet, alike.next quiet⟩

/-- Deleting the `log` calls from one of two runs of alike controllers preserves all answers that do
not concern rows. -/
theorem run (alike : Alike one other) (calls : List Controller.Call) :
    unconcerned calls (one.run calls).1 =
      unconcerned (calls.filter (!·.logs)) (other.run (calls.filter (!·.logs))).1 := by
  induction calls generalizing one other with
  | nil => rfl
  | cons call rest ih =>
      cases about : call.aboutRows with
      | false =>
          obtain ⟨answer, next⟩ := alike.step about
          have silent : call.logs = false := by
            cases call with
            | start | switchTo _ => rfl
            | call request => cases request <;> first | rfl | contradiction
          simp only [List.filter_cons, silent, Bool.not_false, if_true, Controller.run, runWith,
            unconcerned_cons, about, answer]
          exact congrArg (List.cons _) (ih next)
      | true =>
          cases call with
          | start | switchTo _ => contradiction
          | call request =>
              cases request with
              | log id row =>
                  exact ih (alike.log id row)
              | logged id => exact ih alike
              | _ => contradiction

end Alike

end Controller

/-- The log of each live transaction consists of the rows logged for it since its `begin`, in order,
and the log of any other name is empty. Two runs whose calls agree up to `log` calls have the same
answers to all calls that do not concern rows. -/
theorem logged_and_unseen (algorithm : Algorithm) (recovery : Option RecoveryLog)
    (calls : List Controller.Call) :
    let start := Controller.ofAlgorithm algorithm recovery
    (∀ id, (start.run calls).2.logged id =
      if id ∈ (start.run calls).2.active then
        (start.since (fun moment => moment.begun? = some id) calls).filterMap (Moment.row? id)
      else []) ∧
    ∀ others : List Controller.Call,
      others.filter (!·.logs) = calls.filter (!·.logs) →
      unconcerned others (start.run others).1 = unconcerned calls (start.run calls).1 := by
  intro start
  have sound : start.Sound := .ofAlgorithm algorithm recovery
  constructor
  · intro id
    split
    · rename_i live
      exact sound.logged_since_begun (Running.fresh_ids recovery algorithm) id calls live
    · rename_i gone
      exact (Controller.unaware_of_gone gone).logged
  · intro others same
    have alike : start.Alike start := ⟨rfl, rfl, rfl⟩
    rw [alike.run others, same, ← alike.run calls]

/-- A wounded transaction keeps its rows, and the answers of the run agree with those of the run
without `log` calls. -/
theorem logged_and_unseen_wounded :
    let early : Row := ⟨"x", [.int 1]⟩
    let late : Row := ⟨"x", [.null]⟩
    let start := Controller.ofAlgorithm .lock none
    let calls : List Controller.Call := [.start, .call .begin, .call .begin,
      .call (.access "x" 2 .write), .call (.log 2 early), .call (.access "x" 1 .write),
      .call (.log 2 late), .call (.look 2)]
    let others := calls.filter fun call => !call.logs
    2 ∈ (start.run calls).2.active ∧ (start.run calls).2.logged 2 = [early, late] ∧
    others.filter (!·.logs) = calls.filter (!·.logs) ∧
    unconcerned calls (start.run calls).1 = [.done, .began (.ok 1), .began (.ok 2),
      .judged (.allowed (.locked .exclusive)), .judged (.refused (.wounded [2])),
      .seen (some .aborted) (some 2)] ∧
    unconcerned others (start.run others).1 = unconcerned calls (start.run calls).1 := by
  intro early late start calls others
  have same : others.filter (!·.logs) = calls.filter (!·.logs) := rfl
  obtain ⟨rows, unseen⟩ := logged_and_unseen .lock none calls
  have live : 2 ∈ (start.run calls).2.active := by decide
  refine ⟨live, ?_, same, rfl, unseen others same⟩
  rw [rows, if_pos live]
  rfl

end Isolation
