import Isolation.Proofs.Company

/-!
Transaction numbers of a controller. The counter of an engine persists through shutdowns and starts,
so numbers are unique among the transactions of an engine. A switch of the algorithm creates an
engine whose counter starts at zero.
-/

namespace Isolation

namespace Engine

variable {β : Type} {engine : Engine β} {id : TxnId}

theorem begin_not_mem_moves [Discipline β] (engine : Engine β) {call : Call} (other : call ≠ .begin) :
    .begin ∉ engine.moves call := by
  cases call with
  | begin => exact absurd rfl other
  | accessAll objects id action =>
      intro member
      obtain ⟨object, access⟩ := access_of_mem_asked member
      contradiction
  | _ => simp [moves]

theorem last_step [Discipline β] (engine : Engine β) {call : Call} (other : call ≠ .begin) :
    (engine.step call).2.last = engine.last := by
  rw [step_eq_moves]
  have none := engine.begin_not_mem_moves other
  generalize engine.moves call = moves at none
  induction moves generalizing engine with
  | nil => rfl
  | cons move rest ih =>
      rw [List.mem_cons, not_or] at none
      exact (ih (engine.after move) none.2).trans (engine.last_after (Ne.symm none.1))

/-- The engine after a refusal without wounds. -/
def refuse (engine : Engine β) : Engine β :=
  { engine with counters := engine.counters.countVerdict (.refused .unknown) }

/-- The behaviour of an engine towards a name that is not live: every request is refused as unknown,
with no effect but the count of refusals. -/
structure Unaware [Discipline β] (engine : Engine β) (id : TxnId) : Prop where
  access : ∀ object action, engine.access object id action = (.refused .unknown, engine.refuse)
  finish : ∀ commit, engine.finish id commit = (.error (.unknownTransaction id), engine)
  log : ∀ row, engine.log id row = engine
  logged : engine.logged id = []
  status : engine.status? id = none
  timestamp : engine.timestamp? id = none

theorem unaware_of_gone [Discipline β] (gone : id ∉ engine.roster.ids) : engine.Unaware id := by
  have absent : engine.roster.find? id = none := by
    cases found : engine.roster.find? id with
    | none => rfl
    | some entry => exact absurd (Roster.mem_ids.mpr (Roster.mem_live_of_find? found)) gone
  have nobody : engine.roster.get? id = none := by rw [Roster.get?, absent, Option.map_none]
  constructor
  case access => exact fun object action => by simp only [Engine.access, absent, refuse]
  case finish => exact finish_absent absent
  case log => exact fun row => by simp only [Engine.log, absent]
  case logged => rw [Engine.logged, nobody, Option.map_none, Option.getD_none]
  case status => rw [Engine.status?, nobody, Option.map_none]
  case timestamp => rw [Engine.timestamp?, nobody, Option.bind_none]

theorem Unaware.accessAll [Discipline β] (unaware : engine.Unaware id) (object : ObjectId)
    (rest : List ObjectId) (action : Action) :
    engine.accessAll (object :: rest) id action = (.refused .unknown, engine.refuse) := by
  simp only [Engine.accessAll, accessFrom, unaware.access, Verdict.isAllowed, Bool.false_eq_true,
    if_false]

end Engine

namespace Running

variable {running : Running} {id : TxnId}

/-- The number of the last transaction begun. -/
def last (running : Running) : TxnId :=
  running.ask fun engine => engine.last

theorem last_step (running : Running) {call : Call} (other : call ≠ .begin) :
    (running.change fun engine => (engine.step call).2).last = running.last := by
  cases running <;> exact Engine.last_step _ other

theorem last_step_begin (running : Running) :
    (running.change fun engine => (engine.step .begin).2).last = running.last + 1 := by
  cases running <;> rfl

theorem unaware_of_gone (gone : id ∉ running.ask fun engine => engine.roster.ids) :
    running.Holds fun engine => engine.Unaware id := by
  cases running <;> exact Engine.unaware_of_gone gone

/-- The engine after a refusal without wounds. -/
def refuse (running : Running) : Running :=
  running.change fun engine => engine.refuse

end Running

namespace Controller

variable {controller : Controller} {asked : List Access} {id : TxnId}

/-- The call does not replace an engine of the given algorithm. -/
def Call.keeps (algorithm : Algorithm) : Controller.Call → Bool
  | .switchTo target => algorithm = target
  | .start | .call _ => true

theorem algorithm_of_keeps {call : Controller.Call} (kept : call.keeps controller.algorithm = true) :
    (controller.step call).2.algorithm = controller.algorithm := by
  cases call with
  | start => rfl
  | switchTo target =>
      rw [← show controller.algorithm = target from of_decide_eq_true kept, step_switchTo_self]
  | call request => exact controller.algorithm_step_call request

/-- The number of transactions begun by the current engine, updated by one call. A switch resets it
to zero. -/
def recount (controller : Controller) (count : Nat) : Controller.Call → Nat
  | .call .begin => if controller.started then count + 1 else count
  | .switchTo target => if controller.algorithm = target then count else 0
  | .start | .call _ => count

/-- The number of transactions begun by the current engine after the calls. -/
def begun (controller : Controller) (count : Nat) : List Controller.Call → Nat
  | [] => count
  | call :: rest => (controller.step call).2.begun (controller.recount count call) rest

theorem last_step (controller : Controller) (call : Controller.Call) :
    (controller.step call).2.running.last = controller.recount controller.running.last call := by
  cases call with
  | start => rfl
  | switchTo target =>
      by_cases same : controller.algorithm = target
      · subst same
        rw [step_switchTo_self, recount, if_pos rfl]
      · rw [switched_running same, recount, if_neg same]
        cases target <;> rfl
  | call request =>
      cases started : controller.started with
      | true =>
          rw [step_running started]
          by_cases begins : request = .begin
          · subst begins
            rw [Running.last_step_begin, recount, started, if_pos rfl]
          · rw [Running.last_step _ begins]
            cases request <;> first | rfl | exact absurd rfl begins
      | false =>
          rcases step_idle started request with same | rfl
          · rw [same]
            cases request <;> simp [recount, started]
          · have other : Isolation.Call.shutdown ≠ .begin := by simp
            exact controller.running.last_step other

theorem last_run (controller : Controller) (calls : List Controller.Call) :
    (controller.run calls).2.running.last = controller.begun controller.running.last calls := by
  induction calls generalizing controller with
  | nil => rfl
  | cons call rest ih =>
      rw [begun, ← last_step]
      exact ih (controller.step call).2

theorem last_le_of_keeps {call : Controller.Call} (kept : call.keeps controller.algorithm = true) :
    controller.running.last ≤ (controller.step call).2.running.last := by
  rw [last_step]
  cases call with
  | start => exact Nat.le_refl _
  | switchTo target => rw [recount, if_pos (of_decide_eq_true kept)]
  | call request =>
      cases request with
      | begin =>
          rw [recount]
          split
          · exact Nat.le_succ _
          · exact Nat.le_refl _
      | _ => exact Nat.le_refl _

/-- The behaviour of a controller towards a name that is not live, by whether it is started. -/
structure Unaware (controller : Controller) (id : TxnId) : Prop where
  access : ∀ object action, controller.access object id action =
    if controller.started then
      (.refused .unknown, { controller with running := controller.running.refuse })
    else (.refused .notStarted, controller)
  accessAll : ∀ object rest action, controller.accessAll (object :: rest) id action =
    if controller.started then
      (.refused .unknown, { controller with running := controller.running.refuse })
    else (.refused .notStarted, controller)
  finish : ∀ commit, controller.finish id commit =
    (.error (if controller.started then .unknownTransaction id else .notStarted), controller)
  log : ∀ row, controller.log id row = controller
  logged : controller.logged id = []
  status : controller.status? id = none
  timestamp : controller.timestamp? id = none

theorem unaware_of_gone (gone : id ∉ controller.active) : controller.Unaware id := by
  obtain ⟨running, started, recovery⟩ := controller
  have unaware := Running.unaware_of_gone gone
  cases running <;>
    exact {
      access := fun object action => by
        cases started <;> simp [Controller.access, Running.act, Running.refuse, Running.change,
          Engine.Unaware.access unaware]
      accessAll := fun object rest action => by
        cases started <;> simp [Controller.accessAll, Running.act, Running.refuse, Running.change,
          Engine.Unaware.accessAll unaware]
      finish := fun commit => by
        cases started <;> simp [Controller.finish, Running.act, Engine.Unaware.finish unaware]
      log := fun row => by
        cases started <;> simp [Controller.log, Running.change, Engine.Unaware.log unaware]
      logged := Engine.Unaware.logged unaware
      status := Engine.Unaware.status unaware
      timestamp := Engine.Unaware.timestamp unaware }

theorem eq_of_begin (begun : controller.begin.1 = .ok id) : id = controller.running.last + 1 := by
  rw [begin_answer (started_of_begin begun), Except.ok.injEq] at begun
  rw [← begun]
  cases controller.running <;> rfl

theorem last_begin (begun : controller.begin.1 = .ok id) : controller.begin.2.running.last = id := by
  rw [begin_running (started_of_begin begun), eq_of_begin begun]
  cases controller.running <;> rfl

theorem Accounted.gone (accounted : controller.Accounted asked) (given : id ≤ controller.running.last)
    (gone : id ∉ controller.active) (call : Controller.Call) : id ∉ (controller.step call).2.active := by
  rw [mem_active_of_step accounted]
  intro live
  rcases live with ⟨before, _⟩ | ⟨_, begun⟩
  · exact gone before
  · have new := eq_of_begin begun
    lia

theorem algorithm_run_of_keeps {calls : List Controller.Call}
    (kept : ∀ call ∈ calls, call.keeps controller.algorithm = true) :
    (controller.run calls).2.algorithm = controller.algorithm := by
  induction calls generalizing controller with
  | nil => rfl
  | cons call rest ih =>
      obtain ⟨first, later⟩ := List.forall_mem_cons.mp kept
      rw [← algorithm_of_keeps first] at later
      exact (ih later).trans (algorithm_of_keeps first)

theorem Accounted.run_of_keeps (accounted : controller.Accounted asked) (calls : List Controller.Call)
    (kept : ∀ call ∈ calls, call.keeps controller.algorithm = true) :
    controller.running.last ≤ (controller.run calls).2.running.last ∧
      ∀ id ≤ controller.running.last, id ∉ controller.active →
        id ∉ (controller.run calls).2.active := by
  induction calls generalizing controller asked with
  | nil => exact ⟨Nat.le_refl _, fun _ _ gone => gone⟩
  | cons call rest ih =>
      obtain ⟨first, later⟩ := List.forall_mem_cons.mp kept
      rw [← algorithm_of_keeps first] at later
      obtain ⟨bound, absent⟩ := ih (accounted.step call) later
      have next := last_le_of_keeps first
      exact ⟨Nat.le_trans next bound, fun id given gone =>
        absent id (Nat.le_trans given next) (accounted.gone given gone call)⟩

end Controller

/-- Without a switch, the controller assigns no number twice: after a `begin` that returns `id`,
every later `begin` returns a larger number. Once `id` is not live it never becomes live again, and
the controller is `Unaware` of it. -/
theorem ids_never_reused (algorithm : Algorithm) (recovery : Option RecoveryLog)
    (before during : List Controller.Call) (id : TxnId) :
    let start := Controller.ofAlgorithm algorithm recovery
    let begun := (start.run before).2.begin
    begun.1 = .ok id → (∀ call ∈ during, call.keeps begun.2.algorithm = true) →
    (∀ next, (begun.2.run during).2.begin.1 = .ok next → id < next) ∧
    ∀ first rest, first ++ rest = during → id ∉ (begun.2.run first).2.active →
      id ∉ (begun.2.run during).2.active ∧ (begun.2.run during).2.Unaware id := by
  intro start begun given kept
  obtain ⟨asked, accounted⟩ : ∃ asked, begun.2.Accounted asked :=
    ⟨_, ((Controller.ofAlgorithm_accounted algorithm recovery).run before).step (.call .begin)⟩
  have last : begun.2.running.last = id := Controller.last_begin given
  constructor
  · intro next again
    have bound := (accounted.run_of_keeps during kept).1
    have new := Controller.eq_of_begin again
    lia
  · intro first rest whole gone
    subst whole
    rw [List.forall_mem_append] at kept
    rw [Controller.run_append]
    have reached := (accounted.run_of_keeps first kept.1).1
    have still : id ∉ ((begun.2.run first).2.run rest).2.active := by
      refine ((accounted.run first).run_of_keeps rest ?_).2 id (last ▸ reached) gone
      rw [Controller.algorithm_run_of_keeps kept.1]
      exact kept.2
    exact ⟨still, Controller.unaware_of_gone still⟩

/-- After an end, a shutdown and a new start, the next transaction has the next number and the old
number is unknown. -/
theorem ids_never_reused_restart :
    let start := Controller.ofAlgorithm .validation none
    let begun := (start.run [.start]).2.begin
    let during : List Controller.Call :=
      [.call (.finish 1 true), .call .shutdown, .start, .switchTo .validation, .call .begin]
    begun.1 = .ok 1 ∧ (∀ call ∈ during, call.keeps begun.2.algorithm = true) ∧
    1 ∉ (begun.2.run [.call (.finish 1 true)]).2.active ∧
    (begun.2.run during).2.active = [2] ∧ (begun.2.run during).2.Unaware 1 := by
  intro start begun during
  have given : begun.1 = .ok 1 := rfl
  have kept : ∀ call ∈ during, call.keeps begun.2.algorithm = true := by decide
  have gone : 1 ∉ (begun.2.run [.call (.finish 1 true)]).2.active := by decide
  exact ⟨given, kept, gone, by decide,
    ((ids_never_reused .validation none [.start] during 1 given kept).2
      [.call (.finish 1 true)] _ rfl gone).2⟩

/-- After an effective switch the first number is assigned again, and an end under this number ends
the new transaction. -/
theorem switch_reuses_id :
    let start := (Controller.ofAlgorithm .lock none).start
    let switched := (start.run [.call .begin, .switchTo .timestamp]).2
    start.begin.1 = .ok 1 ∧ switched.active = [] ∧
    (switched.finish 1 true).1 = .error (.unknownTransaction 1) ∧
    switched.begin.1 = .ok 1 ∧ (switched.begin.2.finish 1 true).1 = .ok true := by
  decide

end Isolation
