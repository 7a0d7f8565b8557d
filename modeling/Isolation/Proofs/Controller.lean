import Isolation.Proofs.Standing

/-!
The controller as a frame around its engine. A started controller forwards every call; a controller
that is not started forwards `shutdown` only. Only `switchTo` replaces the engine.
-/

namespace Isolation

theorem runWith_append {σ κ α : Type} (step : σ → κ → α × σ) (state : σ) (first second : List κ) :
    (runWith step state (first ++ second)).2 =
      (runWith step (runWith step state first).2 second).2 := by
  induction first generalizing state with
  | nil => rfl
  | cons call rest ih => exact ih (step state call).2

theorem runWith_answers_append {σ κ α : Type} (step : σ → κ → α × σ) (state : σ)
    (first second : List κ) :
    (runWith step state (first ++ second)).1 =
      (runWith step state first).1 ++ (runWith step (runWith step state first).2 second).1 := by
  induction first generalizing state with
  | nil => rfl
  | cons call rest ih => exact congrArg _ (ih (step state call).2)

theorem length_runWith {σ κ α : Type} (step : σ → κ → α × σ) (state : σ) (calls : List κ) :
    (runWith step state calls).1.length = calls.length := by
  induction calls generalizing state with
  | nil => rfl
  | cons call rest ih => exact congrArg Nat.succ (ih (step state call).2)

/-- Each answer of a run is the answer of `step` in some state reached by the run. -/
theorem exists_answered {σ κ α : Type} {step : σ → κ → α × σ} {state : σ} {calls : List κ}
    {pair : κ × α} (member : pair ∈ calls.zip (runWith step state calls).1) :
    ∃ reached, pair.2 = (step reached pair.1).1 := by
  induction calls generalizing state with
  | nil => cases member
  | cons call rest ih =>
      rw [runWith, List.zip_cons_cons, List.mem_cons] at member
      rcases member with rfl | later
      · exact ⟨state, rfl⟩
      · exact ih later

namespace Running

variable {running : Running}

theorem act_eq {α : Type} (running : Running)
    (action : {β : Type} → [Discipline β] → Engine β → α × Engine β) :
    running.act action = (running.ask fun engine => (action engine).1,
      running.change fun engine => (action engine).2) := by
  cases running <;> rfl

theorem algorithm_change (running : Running)
    (action : {β : Type} → [Discipline β] → Engine β → Engine β) :
    (running.change action).algorithm = running.algorithm := by
  cases running <;> rfl

theorem algorithm_fresh (recovery : Option RecoveryLog) (algorithm : Algorithm) :
    (fresh recovery algorithm).algorithm = algorithm := by
  cases algorithm <;> rfl

theorem change_self (running : Running) : (running.change fun engine => engine) = running := by
  cases running <;> rfl

end Running

namespace Controller

variable {controller : Controller}

theorem run_append (controller : Controller) (first second : List Controller.Call) :
    (controller.run (first ++ second)).2 = ((controller.run first).2.run second).2 :=
  runWith_append Controller.step controller first second

theorem step_answer (started : controller.started = true) (call : Isolation.Call) :
    (controller.step (.call call)).1 = controller.running.ask fun engine => (engine.step call).1 := by
  cases call with
  | shutdown | log _ _ => cases controller.running <;> rfl
  | logged _ | look _ | active | counters =>
      simp only [step, logged, status?, timestamp?, Controller.active, Controller.counters]
      cases controller.running <;> rfl
  | _ =>
      simp only [step, begin, access, accessAll, finish, started, if_true, Running.act_eq, answered]
      cases controller.running <;> rfl

theorem step_running (started : controller.started = true) (call : Isolation.Call) :
    (controller.step (.call call)).2.running =
      controller.running.change fun engine => (engine.step call).2 := by
  cases call with
  | logged _ | look _ | active | counters => exact controller.running.change_self.symm
  | shutdown => rfl
  | _ =>
      simp only [step, begin, access, accessAll, finish, log, started, if_true, Running.act_eq,
        answered]
      rfl

theorem step_started (started : controller.started = true) {call : Isolation.Call}
    (kept : call ≠ .shutdown) : (controller.step (.call call)).2.started = true := by
  cases call with
  | shutdown => exact absurd rfl kept
  | _ => simp [step, begin, access, accessAll, finish, log, answered, started]

/-- A call to a controller that is not started changes its state only if it is a shutdown. -/
theorem step_idle (idle : controller.started = false) (call : Isolation.Call) :
    (controller.step (.call call)).2 = controller ∨ call = .shutdown := by
  cases call with
  | shutdown => exact .inr rfl
  | _ => exact .inl (by simp [step, begin, access, accessAll, finish, log, answered, idle])

theorem algorithm_step_call (controller : Controller) (call : Isolation.Call) :
    (controller.step (.call call)).2.algorithm = controller.algorithm := by
  cases started : controller.started with
  | true => rw [algorithm, step_running started, Running.algorithm_change, algorithm]
  | false =>
      rcases step_idle started call with same | rfl
      · rw [same]
      · exact controller.running.algorithm_change _

theorem begin_answer (started : controller.started = true) :
    controller.begin.1 = .ok (controller.running.ask fun engine => engine.begin.1) := by
  simp only [begin, started, if_true, Running.act_eq]

theorem begin_running (started : controller.started = true) :
    controller.begin.2.running = controller.running.change fun engine => engine.begin.2 := by
  simp only [begin, started, if_true, Running.act_eq]

theorem finish_answer (started : controller.started = true) (id : TxnId) (commit : Bool) :
    (controller.finish id commit).1 =
      controller.running.ask fun engine => (engine.finish id commit).1 := by
  simp only [finish, started, if_true, Running.act_eq]

theorem started_of_begin {id : TxnId} (begun : controller.begin.1 = .ok id) :
    controller.started = true := by
  cases started : controller.started with
  | true => rfl
  | false => simp [begin, started] at begun

theorem switched_running {target : Algorithm} (other : controller.algorithm ≠ target) :
    (controller.step (.switchTo target)).2.running = Running.fresh controller.recovery target := by
  simp only [step, switchTo, clear_recovery, if_neg other]

theorem step_switchTo_self (controller : Controller) :
    (controller.step (.switchTo controller.algorithm)).2 = controller := by
  simp only [step, switchTo, if_true]

end Controller

end Isolation
