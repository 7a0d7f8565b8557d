import Mathlib.Data.List.DropRight
import Mathlib.Data.List.Sort
import Isolation.Proofs.Numbering

/-!
The set of live transactions of a controller as a function of the answers: those begun and not ended
since the last shutdown or effective switch. Every live transaction is active or aborted, so that
`finish` succeeds for the live transactions and only for them.
-/

namespace Isolation

theorem filterMap_concat {α β : Type} (told : α → Option β) (values : List α) (last : α) :
    (values ++ [last]).filterMap told = values.filterMap told ++ (told last).toList := by
  cases given : told last <;> simp [given]

theorem Roster.ids_pairwise (roster : Roster) : roster.ids.Pairwise (· < ·) := by
  have ascending : roster.ids.Pairwise fun first second => compare first second = .lt :=
    Std.ExtTreeMap.ordered_keys
  exact ascending.imp Nat.compare_eq_lt.mp

namespace Engine

variable {β : Type} [Discipline β] {engine : Engine β} {id : TxnId}

theorem Undecided.step [Discipline.OnlyForcesAborts β] (undecided : engine.Undecided)
    (orderly : engine.Orderly) (call : Call) : (engine.step call).2.Undecided := by
  rw [step_eq_moves]
  generalize engine.moves call = moves
  induction moves generalizing engine with
  | nil => exact undecided
  | cons move rest ih => exact ih (undecided.after orderly move) (orderly.after move)

theorem Undecided.status?_of_live (undecided : engine.Undecided) (orderly : engine.Orderly)
    (live : id ∈ engine.roster.ids) :
    engine.status? id = some .active ∨ engine.status? id = some .aborted := by
  obtain ⟨status, standing⟩ := orderly.exists_status? (Roster.mem_ids.mp live)
  rw [standing, Option.some.injEq, Option.some.injEq]
  exact undecided id status standing

/-- `finish` succeeds for a live transaction, and commits it only if it is active and the commit is
requested. -/
theorem Undecided.exists_ended (undecided : engine.Undecided) (orderly : engine.Orderly)
    (live : id ∈ engine.roster.ids) (commit : Bool) :
    ∃ committed, (engine.finish id commit).1 = .ok committed ∧
      (committed = true → commit = true ∧ engine.status? id = some .active) := by
  obtain ⟨handle, txn, found⟩ := orderly.exists_find? (Roster.mem_ids.mp live)
  refine ⟨_, congrArg Prod.fst (undecided.finish_eq found commit), fun committed => ?_⟩
  simp only [Bool.and_eq_true] at committed
  obtain ⟨⟨asked, active⟩, _⟩ := committed
  rw [status?_of_find? found, of_decide_eq_true active]
  exact ⟨asked, rfl⟩

end Engine

namespace Running

variable {running : Running} {asked : List Access} {id : TxnId}

theorem ids_pairwise (running : Running) :
    (running.ask fun engine => engine.roster.ids).Pairwise (· < ·) := by
  cases running <;> exact Roster.ids_pairwise _

theorem le_last (accounted : running.Holds (Engine.Accounted asked))
    (live : id ∈ running.ask fun engine => engine.roster.ids) : id ≤ running.last := by
  cases running <;>
    obtain ⟨past, sound, _⟩ := accounted <;>
    have orderly := (Discipline.RefusesOnlyConflicts.chronicle sound).orderly <;>
    exact (orderly.bounds_of_live (Roster.mem_ids.mp live)).2

theorem fresh_undecided (recovery : Option RecoveryLog) (algorithm : Algorithm) :
    (fresh recovery algorithm).Holds fun engine => engine.Undecided := by
  cases algorithm <;>
    exact Engine.undecided_of_nobody fun id live => by simp [Engine.fresh] at live

theorem step_undecided (accounted : running.Holds (Engine.Accounted asked))
    (undecided : running.Holds fun engine => engine.Undecided) (call : Call) :
    (running.change fun engine => (engine.step call).2).Holds fun engine => engine.Undecided := by
  cases running <;>
    obtain ⟨past, sound, _⟩ := accounted <;>
    exact Engine.Undecided.step undecided (Discipline.RefusesOnlyConflicts.chronicle sound).orderly call

theorem status?_of_live (accounted : running.Holds (Engine.Accounted asked))
    (undecided : running.Holds fun engine => engine.Undecided)
    (live : id ∈ running.ask fun engine => engine.roster.ids) :
    (running.ask fun engine => engine.status? id) = some .active ∨
      (running.ask fun engine => engine.status? id) = some .aborted := by
  cases running <;>
    obtain ⟨past, sound, _⟩ := accounted <;>
    exact Engine.Undecided.status?_of_live undecided
      (Discipline.RefusesOnlyConflicts.chronicle sound).orderly
      live

theorem live_of_status? {status : Status}
    (standing : (running.ask fun engine => engine.status? id) = some status) :
    id ∈ running.ask fun engine => engine.roster.ids := by
  cases running <;> exact Roster.mem_ids.mpr (Engine.mem_live_of_status? standing)

theorem exists_ended (accounted : running.Holds (Engine.Accounted asked))
    (undecided : running.Holds fun engine => engine.Undecided)
    (live : id ∈ running.ask fun engine => engine.roster.ids) (commit : Bool) :
    ∃ committed, (running.ask fun engine => (engine.finish id commit).1) = .ok committed ∧
      (committed = true →
        commit = true ∧ (running.ask fun engine => engine.status? id) = some .active) := by
  cases running <;>
    obtain ⟨past, sound, _⟩ := accounted <;>
    exact Engine.Undecided.exists_ended undecided
      (Discipline.RefusesOnlyConflicts.chronicle sound).orderly live
      commit

end Running

namespace Controller

variable {controller : Controller} {id : TxnId}

/-- The running engine after a call is the same engine, a fresh engine after a switch, or the engine
after its own step. -/
theorem running_step (controller : Controller) (call : Controller.Call) :
    (controller.step call).2.running = controller.running ∨
    (∃ target, call = .switchTo target ∧
      (controller.step call).2.running = Running.fresh controller.recovery target) ∨
    ∃ request, call = .call request ∧ (controller.step call).2.running =
      controller.running.change fun engine => (engine.step request).2 := by
  cases call with
  | start => exact .inl rfl
  | switchTo target =>
      by_cases same : controller.algorithm = target
      · subst same
        rw [step_switchTo_self]
        exact .inl rfl
      · exact .inr (.inl ⟨target, rfl, switched_running same⟩)
  | call request =>
      cases started : controller.started with
      | true => exact .inr (.inr ⟨request, rfl, step_running started request⟩)
      | false =>
          rcases step_idle started request with same | rfl
          · exact .inl (congrArg running same)
          · exact .inr (.inr ⟨.shutdown, rfl, rfl⟩)

theorem live_of_status? {status : Status} (standing : controller.status? id = some status) :
    id ∈ controller.active :=
  Running.live_of_status? standing

/-- `finish` succeeds for live transactions only. -/
theorem live_of_ended {commit committed : Bool}
    (ended : (controller.finish id commit).1 = .ok committed) : id ∈ controller.active := by
  by_contra gone
  rw [(unaware_of_gone gone).finish] at ended
  contradiction

/-- The invariant of controller runs. -/
structure Sound (controller : Controller) : Prop where
  accounted : ∃ asked, controller.Accounted asked
  undecided : controller.running.Holds fun engine => engine.Undecided

namespace Sound

theorem ofAlgorithm (algorithm : Algorithm) (recovery : Option RecoveryLog) :
    (Controller.ofAlgorithm algorithm recovery).Sound where
  accounted := ⟨[], ofAlgorithm_accounted algorithm recovery⟩
  undecided := Running.fresh_undecided recovery algorithm

theorem step (sound : controller.Sound) (call : Controller.Call) : (controller.step call).2.Sound := by
  obtain ⟨asked, accounted⟩ := sound.accounted
  refine ⟨⟨_, accounted.step call⟩, ?_⟩
  rcases controller.running_step call with same | ⟨target, _, exchanged⟩ | ⟨request, _, stepped⟩
  · rw [same]
    exact sound.undecided
  · rw [exchanged]
    exact Running.fresh_undecided controller.recovery target
  · rw [stepped]
    exact Running.step_undecided accounted.engine sound.undecided request

theorem run (sound : controller.Sound) (calls : List Controller.Call) :
    (controller.run calls).2.Sound := by
  induction calls generalizing controller with
  | nil => exact sound
  | cons call rest ih => exact ih (sound.step call)

theorem started_of_live (sound : controller.Sound) (live : id ∈ controller.active) :
    controller.started = true := by
  obtain ⟨asked, accounted⟩ := sound.accounted
  by_contra idle
  rw [accounted.idle (Bool.eq_false_iff.mpr idle)] at live
  contradiction

theorem le_last (sound : controller.Sound) (live : id ∈ controller.active) :
    id ≤ controller.running.last := by
  obtain ⟨asked, accounted⟩ := sound.accounted
  exact Running.le_last accounted.engine live

theorem exists_ended (sound : controller.Sound) (live : id ∈ controller.active) (commit : Bool) :
    ∃ committed, (controller.finish id commit).1 = .ok committed ∧
      (committed = true → commit = true ∧ controller.status? id = some .active) := by
  obtain ⟨asked, accounted⟩ := sound.accounted
  rw [finish_answer (sound.started_of_live live)]
  exact Running.exists_ended accounted.engine sound.undecided live commit

theorem status?_of_live (sound : controller.Sound) (live : id ∈ controller.active) :
    controller.status? id = some .active ∨ controller.status? id = some .aborted := by
  obtain ⟨asked, accounted⟩ := sound.accounted
  exact Running.status?_of_live accounted.engine sound.undecided live

theorem active_of_committed (sound : controller.Sound) {commit : Bool}
    (committed : (controller.finish id commit).1 = .ok true) :
    commit = true ∧ controller.status? id = some .active := by
  obtain ⟨answer, ended, committing⟩ := sound.exists_ended (live_of_ended committed) commit
  rw [committed, Except.ok.injEq] at ended
  exact committing ended.symm

/-- `finish` never fails with an invalid transition. -/
theorem finish_ne_invalid (sound : controller.Sound) (id : TxnId) (commit : Bool)
    (cause : TransitionError) : (controller.finish id commit).1 ≠ .error (.invalidTransition cause) := by
  by_cases live : id ∈ controller.active
  · obtain ⟨committed, ended, _⟩ := sound.exists_ended live commit
    simp [ended]
  · rw [(unaware_of_gone live).finish]
    split <;> simp

end Sound

end Controller

/-- The transaction that a call begins, read off its answer. -/
def Answer.begun? : Answer → Option TxnId
  | .began (.ok id) => some id
  | _ => none

/-- A call together with the controller that receives it. -/
structure Moment where
  controller : Controller
  call : Controller.Call

namespace Moment

variable {moment : Moment} {id : TxnId}

def answer (moment : Moment) : Answer :=
  (moment.controller.step moment.call).1

def next (moment : Moment) : Controller :=
  (moment.controller.step moment.call).2

/-- The call replaces the engine. -/
def switches (moment : Moment) : Bool :=
  !moment.call.keeps moment.controller.algorithm

/-- The call removes all live transactions: a shutdown or an effective switch. -/
def clears (moment : Moment) : Bool :=
  match moment.call with
  | .call .shutdown => true
  | _ => moment.switches

def begun? (moment : Moment) : Option TxnId :=
  moment.answer.begun?

/-- The transaction that a call ends, read off its answer. -/
def ended? (moment : Moment) : Option TxnId :=
  match moment.call, moment.answer with
  | .call (.finish id _), .ended (.ok _) => some id
  | _, _ => none

theorem begun?_eq_some :
    moment.begun? = some id ↔
      moment.call = .call .begin ∧ moment.controller.begin.1 = .ok id := by
  obtain ⟨controller, call⟩ := moment
  simp only [begun?, answer]
  cases call with
  | start | switchTo target => simp [Controller.step, Answer.begun?]
  | call request =>
      cases request with
      | begin =>
          simp only [Controller.step, answered, true_and]
          cases controller.begin.1 <;> simp [Answer.begun?]
      | _ => simp [Controller.step, answered, Answer.begun?]

theorem ended?_eq_some :
    moment.ended? = some id ↔ ∃ commit committed,
      moment.call = .call (.finish id commit) ∧
        (moment.controller.finish id commit).1 = .ok committed := by
  obtain ⟨controller, call⟩ := moment
  simp only [ended?, answer]
  cases call with
  | start | switchTo target => simp
  | call request =>
      cases request with
      | finish target commit =>
          simp only [Controller.step, answered, Controller.Call.call.injEq, Call.finish.injEq]
          cases outcome : (controller.finish target commit).1 with
          | error reason =>
              refine ⟨fun ended => by contradiction, fun ended => ?_⟩
              obtain ⟨_, _, ⟨rfl, rfl⟩, answered⟩ := ended
              rw [outcome] at answered
              contradiction
          | ok committed =>
              rw [Option.some.injEq]
              constructor
              · rintro rfl
                exact ⟨commit, committed, ⟨rfl, rfl⟩, outcome⟩
              · rintro ⟨_, _, ⟨same, _⟩, _⟩
                exact same
      | _ => simp

theorem live_of_ended? (ended : moment.ended? = some id) : id ∈ moment.controller.active := by
  obtain ⟨commit, committed, _, answered⟩ := ended?_eq_some.mp ended
  exact Controller.live_of_ended answered

/-- Unless the call clears the engine, a live transaction stays live exactly if the answer does not
end it. -/
theorem spares_iff (sound : moment.controller.Sound) (stays : moment.clears = false)
    (live : id ∈ moment.controller.active) :
    moment.call.spares moment.controller.algorithm id = true ↔ moment.ended? ≠ some id := by
  obtain ⟨controller, call⟩ := moment
  rw [Ne, ended?_eq_some]
  simp only [clears, switches] at stays live ⊢
  cases call with
  | start => simp [Controller.Call.spares]
  | switchTo target =>
      simp only [Bool.not_eq_false'] at stays
      simpa [Controller.Call.spares, Controller.Call.keeps] using stays
  | call request =>
      cases request with
      | shutdown => contradiction
      | finish target commit =>
          simp only [Controller.Call.spares, Call.ends, Bool.not_eq_true', decide_eq_false_iff_not,
            Controller.Call.call.injEq, Call.finish.injEq, not_iff_not]
          constructor
          · rintro rfl
            obtain ⟨committed, ended, _⟩ := sound.exists_ended live commit
            exact ⟨commit, committed, ⟨rfl, rfl⟩, ended⟩
          · rintro ⟨_, _, ⟨same, _⟩, _⟩
            exact same
      | _ => simp [Controller.Call.spares, Call.ends]

theorem ascending (sound : moment.controller.Sound) :
    (moment.controller.active ++ moment.begun?.toList).Pairwise (· < ·) := by
  refine List.pairwise_append.mpr ⟨Running.ids_pairwise _, ?_, fun id live new begun => ?_⟩
  · cases moment.begun? <;> simp
  · rw [Option.mem_toList, begun?_eq_some] at begun
    have last := Controller.eq_of_begin begun.2
    have bound := sound.le_last live
    lia

theorem active_next (sound : moment.controller.Sound) (stays : moment.clears = false) :
    moment.next.active =
      (moment.controller.active ++ moment.begun?.toList).filter (moment.ended? ≠ some ·) := by
  obtain ⟨asked, accounted⟩ := sound.accounted
  refine List.Pairwise.eq_of_mem_iff (Running.ids_pairwise _) ((ascending sound).filter _) fun {id} => ?_
  rw [List.mem_filter, List.mem_append, Option.mem_toList, decide_eq_true_iff]
  refine (Controller.mem_active_of_step accounted moment.call).trans ?_
  rw [or_and_right, begun?_eq_some]
  refine or_congr (and_congr_right fun live => spares_iff sound stays live) ?_
  refine (and_iff_left_of_imp fun begins => ?_).symm
  rw [Ne, ended?_eq_some, begins.1]
  simp

theorem spares_of_clears (clears : moment.clears = true) (id : TxnId) :
    moment.call.spares moment.controller.algorithm id = false ∧ moment.call ≠ .call .begin := by
  obtain ⟨controller, call⟩ := moment
  cases call with
  | start => contradiction
  | switchTo target =>
      have other : Controller.Call.keeps controller.algorithm (.switchTo target) = false := by
        simpa [Moment.clears, switches] using clears
      exact ⟨other, by simp⟩
  | call request =>
      cases request with
      | shutdown => exact ⟨rfl, by simp⟩
      | _ => contradiction

theorem active_cleared (sound : moment.controller.Sound) (clears : moment.clears = true) :
    moment.next.active = [] := by
  obtain ⟨asked, accounted⟩ := sound.accounted
  refine List.eq_nil_iff_forall_not_mem.mpr fun id live => ?_
  obtain ⟨unspared, other⟩ := spares_of_clears clears id
  rcases (Controller.mem_active_of_step accounted moment.call).mp live with ⟨_, spared⟩ | ⟨begins, _⟩
  · rw [unspared] at spared
    contradiction
  · exact other begins

theorem keeps_of_unswitched (kept : moment.switches = false) :
    moment.call.keeps moment.controller.algorithm = true := by
  simpa [switches] using kept

theorem unswitched_of_stays (stays : moment.clears = false) : moment.switches = false := by
  unfold clears at stays
  split at stays
  · contradiction
  · exact stays

end Moment

namespace Controller

variable {controller : Controller} {id : TxnId}

/-- The moments of a run, in order. -/
def moments (controller : Controller) : List Controller.Call → List Moment
  | [] => []
  | call :: rest => ⟨controller, call⟩ :: (controller.step call).2.moments rest

theorem moments_concat (controller : Controller) (calls : List Controller.Call)
    (last : Controller.Call) :
    controller.moments (calls ++ [last]) =
      controller.moments calls ++ [⟨(controller.run calls).2, last⟩] := by
  induction calls generalizing controller with
  | nil => rfl
  | cons call rest ih => exact congrArg _ (ih (controller.step call).2)

/-- The moments after the last one of the given kind. -/
def since (kind : Moment → Bool) (controller : Controller) (calls : List Controller.Call) :
    List Moment :=
  (controller.moments calls).rtakeWhile fun moment => !kind moment

theorem since_concat (kind : Moment → Bool) (controller : Controller) (calls : List Controller.Call)
    (last : Controller.Call) :
    controller.since kind (calls ++ [last]) =
      if kind ⟨(controller.run calls).2, last⟩ then []
      else controller.since kind calls ++ [⟨(controller.run calls).2, last⟩] := by
  rw [since, moments_concat, List.rtakeWhile_concat]
  cases kind ⟨(controller.run calls).2, last⟩ <;> rfl

theorem run_concat (controller : Controller) (calls : List Controller.Call)
    (last : Controller.Call) :
    (controller.run (calls ++ [last])).2 = (⟨(controller.run calls).2, last⟩ : Moment).next :=
  controller.run_append calls [last]

/-- Induction over runs for a property of the controller and the moments since the last one of the
given kind, at which it is established anew. -/
theorem since_induction {kind : Moment → Bool} {P : Controller → List Moment → Prop}
    (sound : controller.Sound) (start : P controller [])
    (again : ∀ moment : Moment, moment.controller.Sound → kind moment = true → P moment.next [])
    (goesOn : ∀ (moment : Moment) (past : List Moment), moment.controller.Sound →
      kind moment = false → P moment.controller past → P moment.next (past ++ [moment]))
    (calls : List Controller.Call) :
    P (controller.run calls).2 (controller.since kind calls) := by
  -- Induction on the last call: a moment of the kind resets the list, any other one extends it.
  induction calls using List.reverseRecOn with
  | nil => exact start
  | append_singleton calls last ih =>
      rw [run_concat, since_concat]
      split
      · rename_i here
        exact again _ (sound.run calls) here
      · rename_i elsewhere
        exact goesOn _ _ (sound.run calls) (Bool.eq_false_iff.mpr elsewhere) ih

/-- The invariant that relates the live transactions to the moments since the last clearing. -/
structure Current (controller : Controller) (past : List Moment) : Prop where
  active : controller.active = (past.filterMap Moment.begun?).filter
    (· ∉ past.filterMap Moment.ended?)
  given : ∀ id ∈ past.filterMap Moment.ended?, id ≤ controller.running.last

theorem Current.next {moment : Moment} {past : List Moment} (current : moment.controller.Current past)
    (sound : moment.controller.Sound) (stays : moment.clears = false) :
    moment.next.Current (past ++ [moment]) := by
  have keeps := Moment.keeps_of_unswitched (Moment.unswitched_of_stays stays)
  constructor
  case active =>
      have fresh : ∀ id ∈ moment.begun?.toList, id ∉ past.filterMap Moment.ended? := by
        intro id begun ended
        rw [Option.mem_toList, Moment.begun?_eq_some] at begun
        have new := eq_of_begin begun.2
        have bound := current.given id ended
        lia
      rw [Moment.active_next sound stays, current.active, filterMap_concat, filterMap_concat,
        List.filter_append, List.filter_append, List.filter_filter]
      congr 1
      · refine List.filter_congr fun id begun => ?_
        simp [Bool.and_comm]
      · refine List.filter_congr fun id begun => ?_
        simp [fresh id begun]
  case given =>
      intro id ended
      rw [filterMap_concat, List.mem_append, Option.mem_toList] at ended
      refine Nat.le_trans ?_ (last_le_of_keeps keeps)
      rcases ended with before | now
      · exact current.given id before
      · exact sound.le_last (Moment.live_of_ended? now)

end Controller

/-- The live transactions of a controller after any run are those begun and not ended since the last
clearing moment, in ascending order, and there are none while it is not started. Each of them is
active or aborted. On a started controller `finish` succeeds for exactly the live transactions and
reports any other as unknown; it never fails with an invalid transition, and it commits only active
transactions on request. -/
theorem active_since_cleared (algorithm : Algorithm) (recovery : Option RecoveryLog)
    (calls : List Controller.Call) :
    let start := Controller.ofAlgorithm algorithm recovery
    let controller := (start.run calls).2
    let past := start.since Moment.clears calls
    controller.active =
      (past.filterMap Moment.begun?).filter (· ∉ past.filterMap Moment.ended?) ∧
    controller.active.Pairwise (· < ·) ∧
    (controller.started = false → controller.active = []) ∧
    (∀ id ∈ controller.active,
      controller.status? id = some .active ∨ controller.status? id = some .aborted) ∧
    ∀ id commit,
      (∀ cause, (controller.finish id commit).1 ≠ .error (.invalidTransition cause)) ∧
      (controller.started = true → if id ∈ controller.active then
          ∃ committed, (controller.finish id commit).1 = .ok committed
        else (controller.finish id commit).1 = .error (.unknownTransaction id)) ∧
      ((controller.finish id commit).1 = .ok true →
        commit = true ∧ controller.status? id = some .active) := by
  intro start controller past
  have soundStart : start.Sound := .ofAlgorithm algorithm recovery
  have sound : controller.Sound := soundStart.run calls
  have current : controller.Current past :=
    Controller.since_induction (P := Controller.Current) soundStart
      ⟨Running.fresh_ids recovery algorithm, by simp⟩
      (fun moment sound clears => ⟨Moment.active_cleared sound clears, by simp⟩)
      (fun moment past sound stays current => current.next sound stays) calls
  refine ⟨current.active, Running.ids_pairwise _, fun idle => ?_,
    fun id live => sound.status?_of_live live, fun id commit =>
    ⟨sound.finish_ne_invalid id commit, fun started => ?_, sound.active_of_committed⟩⟩
  · obtain ⟨asked, accounted⟩ := sound.accounted
    exact accounted.idle idle
  · split
    · rename_i live
      obtain ⟨committed, ended, _⟩ := sound.exists_ended live commit
      exact ⟨committed, ended⟩
    · rename_i gone
      rw [(Controller.unaware_of_gone gone).finish, started, if_pos rfl]

end Isolation
