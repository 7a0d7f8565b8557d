import Mathlib.Data.List.Induction
import Mathlib.Data.List.Infix
import Isolation.Proofs.Controller
import Isolation.Proofs.ConflictFree

/-!
Invariants of controller runs that are independent of the discipline: the accesses requested of the
current engine and the set of transactions that have been live in it. A transaction remains live
from its `begin` as long as every call spares it.
-/

namespace Isolation

/-- A property of engines, stated uniformly over the disciplines, holds of the running engine. -/
def Running.Holds
    (P : {β : Type} → [Discipline β] → [Discipline.RefusesOnlyConflicts β] → Engine β → Prop) :
    Running → Prop
  | lock engine => P engine
  | timestamp engine => P engine
  | validation engine => P engine

namespace Running

variable {running : Running} {asked : List Access} {id : TxnId}

theorem fresh_accounted (recovery : Option RecoveryLog) (algorithm : Algorithm) :
    (fresh recovery algorithm).Holds (Engine.Accounted []) := by
  have nothing (access : Access) (granted : Event.granted access ∈ []) : access ∈ [] := by
    contradiction
  cases algorithm with
  | lock => exact ⟨[], Locking.initial_sound recovery, nothing⟩
  | timestamp => exact ⟨[], ⟨.empty Engine.fresh_orderly, Watermarks.fresh_exact⟩, nothing⟩
  | validation => exact ⟨[], ⟨.empty Engine.fresh_orderly, .empty⟩, nothing⟩

theorem fresh_ids (recovery : Option RecoveryLog) (algorithm : Algorithm) :
    ((fresh recovery algorithm).ask fun engine => engine.roster.ids) = [] := by
  cases algorithm <;> rfl

theorem step_accounted (accounted : running.Holds (Engine.Accounted asked)) (call : Call) :
    (running.change fun engine => (engine.step call).2).Holds
      (Engine.Accounted (asked ++ running.ask fun engine => engine.requests call)) := by
  cases running <;> exact Engine.Accounted.step accounted call

theorem accounted_append (accounted : running.Holds (Engine.Accounted asked))
    (more : List Access) : running.Holds (Engine.Accounted (asked ++ more)) := by
  cases running <;> exact Engine.Accounted.append accounted more

theorem mem_ids_step (accounted : running.Holds (Engine.Accounted asked)) (call : Call) :
    (id ∈ (running.change fun engine => (engine.step call).2).ask fun engine => engine.roster.ids) ↔
      ((id ∈ running.ask fun engine => engine.roster.ids) ∧ call.ends id = false) ∨
        (call = .begin ∧ (running.ask fun engine => engine.begin.1) = id) := by
  cases running <;> exact Engine.Accounted.mem_ids_step accounted call

end Running

namespace Controller

variable {controller : Controller} {id : TxnId} {asked : List Access}

def requests (controller : Controller) : Controller.Call → List Access
  | .call call => controller.running.ask fun engine => engine.requests call
  | .start | .switchTo _ => []

/-- The accesses requested of the current engine, extended by one call. A call that replaces the
engine resets the list. -/
def note (controller : Controller) (asked : List Access) (call : Controller.Call) : List Access :=
  if (controller.step call).2.algorithm = controller.algorithm then
    asked ++ controller.requests call
  else []

/-- The accesses requested of the engine that is current after the calls. -/
def requested (controller : Controller) (asked : List Access) : List Controller.Call → List Access
  | [] => asked
  | call :: rest => (controller.step call).2.requested (controller.note asked call) rest

def upcoming (controller : Controller) : List Controller.Call → List Access
  | [] => []
  | call :: _ => controller.requests call

/-- A transaction is live before some call of the list or after the last one. -/
def company (controller : Controller) (calls : List Controller.Call) (other : TxnId) : Prop :=
  ∃ first ∈ calls.inits, other ∈ (controller.run first).2.active

instance (controller : Controller) (calls : List Controller.Call) (other : TxnId) :
    Decidable (controller.company calls other) :=
  inferInstanceAs (Decidable (∃ _ ∈ _, _))

/-- The call neither ends the transaction nor replaces an engine of the given algorithm. -/
def Call.spares (algorithm : Algorithm) (id : TxnId) : Controller.Call → Bool
  | .start => true
  | .switchTo target => algorithm = target
  | .call request => !request.ends id

structure Accounted (controller : Controller) (asked : List Access) : Prop where
  engine : controller.running.Holds (Engine.Accounted asked)
  idle : controller.started = false → controller.active = []

theorem started_of_spares (started : controller.started = true) {call : Controller.Call}
    (spared : call.spares controller.algorithm id = true) :
    (controller.step call).2.started = true := by
  cases call with
  | start => rfl
  | switchTo target =>
      simp only [Controller.step, switchTo]
      split <;> exact started
  | call request =>
      apply step_started started
      intro down
      rw [down] at spared
      contradiction

theorem mem_active_of_step (accounted : controller.Accounted asked) (call : Controller.Call) :
    id ∈ (controller.step call).2.active ↔
      (id ∈ controller.active ∧ call.spares controller.algorithm id = true) ∨
        (call = .call .begin ∧ controller.begin.1 = .ok id) := by
  cases call with
  | start => simp [step, start, active, Call.spares]
  | switchTo target =>
      by_cases same : controller.algorithm = target
      · subst same
        simp [step_switchTo_self, Call.spares]
      · rw [active, switched_running same, Running.fresh_ids]
        simp [Call.spares, same]
  | call request =>
      cases started : controller.started with
      | true =>
          rw [active, step_running started, Running.mem_ids_step accounted.engine,
            begin_answer started]
          simp [Call.spares, active]
      | false =>
          have nobody := accounted.idle started
          have unbegun : controller.begin.1 ≠ .ok id := fun begun => by
            rw [started_of_begin begun] at started
            contradiction
          rcases step_idle started request with same | rfl
          · simp [same, nobody, unbegun]
          · have left : id ∈ (controller.step (.call .shutdown)).2.active ↔ _ :=
              Running.mem_ids_step accounted.engine .shutdown
            rw [left]
            simp [Isolation.Call.ends, nobody]

theorem Accounted.step (accounted : controller.Accounted asked) (call : Controller.Call) :
    (controller.step call).2.Accounted (controller.note asked call) where
  engine := by
    have engine := accounted.engine
    cases call with
    | start =>
        have same : controller.note asked .start = asked := by
          simp [note, Controller.step, algorithm, start, requests]
        rw [same]
        exact engine
    | switchTo target =>
        by_cases same : controller.algorithm = target
        · subst same
          rw [note, step_switchTo_self, if_pos rfl, requests, List.append_nil]
          exact engine
        · rw [note, if_neg, switched_running same]
          · exact Running.fresh_accounted controller.recovery target
          · rw [algorithm, switched_running same, Running.algorithm_fresh]
            exact Ne.symm same
    | call request =>
        rw [note, if_pos (controller.algorithm_step_call request), requests]
        have next := Running.step_accounted engine request
        cases started : controller.started with
        | true =>
            rw [step_running started]
            exact next
        | false =>
            rcases step_idle started request with same | rfl
            · rw [same]
              exact Running.accounted_append engine _
            · exact next
  idle stopped := by
    apply List.eq_nil_iff_forall_not_mem.mpr
    intro id member
    rcases (mem_active_of_step accounted call).mp member with ⟨before, spared⟩ | ⟨rfl, begun⟩
    · cases started : controller.started with
      | true =>
          rw [started_of_spares started spared] at stopped
          contradiction
      | false =>
          rw [accounted.idle started] at before
          contradiction
    · rw [step_started (started_of_begin begun) (by simp)] at stopped
      contradiction

theorem Accounted.run (accounted : controller.Accounted asked) (calls : List Controller.Call) :
    (controller.run calls).2.Accounted (controller.requested asked calls) := by
  induction calls generalizing controller asked with
  | nil => exact accounted
  | cons call rest ih => exact ih (accounted.step call)

theorem ofAlgorithm_accounted (algorithm : Algorithm) (recovery : Option RecoveryLog) :
    (ofAlgorithm algorithm recovery).Accounted [] where
  engine := Running.fresh_accounted recovery algorithm
  idle _ := Running.fresh_ids recovery algorithm

theorem algorithm_of_spares {call : Controller.Call}
    (spared : call.spares controller.algorithm id = true) :
    (controller.step call).2.algorithm = controller.algorithm := by
  cases call with
  | start => rfl
  | switchTo target =>
      rw [← show controller.algorithm = target from of_decide_eq_true spared, step_switchTo_self]
  | call request => exact controller.algorithm_step_call request

theorem spared_cons {call : Controller.Call} {rest : List Controller.Call}
    (spared : ∀ other ∈ call :: rest, other.spares controller.algorithm id = true) :
    call.spares controller.algorithm id = true ∧
      ∀ other ∈ rest, other.spares (controller.step call).2.algorithm id = true := by
  obtain ⟨first, later⟩ := List.forall_mem_cons.mp spared
  rw [← algorithm_of_spares first] at later
  exact ⟨first, later⟩

theorem mem_requested (calls : List Controller.Call)
    (spared : ∀ call ∈ calls, call.spares controller.algorithm id = true) {access : Access}
    (before : access ∈ asked) : access ∈ controller.requested asked calls := by
  induction calls generalizing controller asked with
  | nil => exact before
  | cons call rest ih =>
      obtain ⟨first, later⟩ := spared_cons spared
      apply ih later
      rw [note, if_pos (algorithm_of_spares first)]
      exact List.mem_append_left _ before

theorem mem_requested_of_upcoming {next : List Controller.Call}
    (spared : ∀ call ∈ next, call.spares controller.algorithm id = true) {access : Access}
    (member : access ∈ asked ++ controller.upcoming next) :
    access ∈ controller.requested asked next := by
  cases next with
  | nil => simpa [upcoming, requested] using member
  | cons call rest =>
      obtain ⟨first, later⟩ := spared_cons spared
      refine mem_requested rest later ?_
      rw [note, if_pos (algorithm_of_spares first)]
      exact member

theorem requested_append (controller : Controller) (asked : List Access)
    (first second : List Controller.Call) :
    controller.requested asked (first ++ second) =
      (controller.run first).2.requested (controller.requested asked first) second := by
  induction first generalizing controller asked with
  | nil => rfl
  | cons call rest ih => exact ih (controller.step call).2 (controller.note asked call)

theorem company_of_active {calls : List Controller.Call} {other : TxnId}
    (live : other ∈ controller.active) : controller.company calls other :=
  ⟨[], (List.mem_inits _ _).mpr List.nil_prefix, live⟩

theorem company_cons {call : Controller.Call} {rest : List Controller.Call} {other : TxnId}
    (met : (controller.step call).2.company rest other) : controller.company (call :: rest) other := by
  obtain ⟨first, initial, live⟩ := met
  refine ⟨call :: first, ?_, live⟩
  rw [List.mem_inits] at initial ⊢
  exact List.cons_prefix_cons.mpr ⟨rfl, initial⟩

theorem algorithm_run {calls : List Controller.Call}
    (spared : ∀ call ∈ calls, call.spares controller.algorithm id = true) :
    (controller.run calls).2.algorithm = controller.algorithm := by
  induction calls generalizing controller with
  | nil => rfl
  | cons call rest ih =>
      obtain ⟨first, later⟩ := spared_cons spared
      exact (ih later).trans (algorithm_of_spares first)

theorem mem_active_run (accounted : controller.Accounted asked) (live : id ∈ controller.active)
    {calls : List Controller.Call}
    (spared : ∀ call ∈ calls, call.spares controller.algorithm id = true) :
    id ∈ (controller.run calls).2.active := by
  induction calls generalizing controller asked with
  | nil => exact live
  | cons call rest ih =>
      obtain ⟨first, later⟩ := spared_cons spared
      exact ih (accounted.step call) ((mem_active_of_step accounted call).mpr (.inl ⟨live, first⟩)) later

theorem exists_begin (accounted : controller.Accounted asked) (nobody : controller.active = [])
    {calls : List Controller.Call} (live : id ∈ (controller.run calls).2.active) :
    ∃ before during, calls = before ++ .call .begin :: during ∧
      (controller.run before).2.begin.1 = .ok id ∧
      ∀ call ∈ during, call.spares (controller.run before).2.begin.2.algorithm id = true := by
  -- Induction on the last call: it spares the transaction, or it is its `begin`.
  induction calls using List.reverseRecOn with
  | nil =>
      rw [show (controller.run []).2 = controller from rfl, nobody] at live
      contradiction
  | append_singleton calls last ih =>
      rw [run_append] at live
      rcases (mem_active_of_step (accounted.run calls) last).mp live with ⟨before, spared⟩ | ⟨rfl, begun⟩
      · obtain ⟨first, during, rfl, begun, kept⟩ := ih before
        refine ⟨first, during ++ [last], by simp, begun, ?_⟩
        rw [run_append] at spared
        have same := algorithm_run kept
        intro call member
        rcases List.mem_append.mp member with old | new
        · exact kept call old
        · rw [List.mem_singleton.mp new, ← same]
          exact spared
      · exact ⟨calls, [], rfl, begun, fun call member => by contradiction⟩

theorem company_mono {first next : List Controller.Call} {other : TxnId}
    (met : controller.company first other) : controller.company (first ++ next) other := by
  obtain ⟨prior, initial, live⟩ := met
  rw [List.mem_inits] at initial
  exact ⟨prior, (List.mem_inits _ _).mpr (initial.trans (List.prefix_append _ _)), live⟩

theorem exists_requested (controller : Controller) (first next : List Controller.Call) :
    ∃ prior ∈ (first ++ next).inits, controller.requested [] prior =
      controller.requested [] first ++ (controller.run first).2.upcoming next := by
  cases next with
  | nil =>
      exact ⟨first, by rw [List.mem_inits, List.append_nil], (List.append_nil _).symm⟩
  | cons call rest =>
      cases call with
      | start | switchTo target =>
          exact ⟨first, (List.mem_inits _ _).mpr (List.prefix_append _ _), (List.append_nil _).symm⟩
      | call request =>
          refine ⟨first ++ [.call request], ?_, ?_⟩
          · rw [List.mem_inits]
            exact ⟨rest, by simp⟩
          · rw [requested_append]
            exact if_pos (algorithm_step_call _ request)

end Controller

end Isolation
