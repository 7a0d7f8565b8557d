import Isolation.Proofs.Company

/-!
Liveness in the absence of conflicts, for every algorithm. A transaction whose requests conflict
with no request of a transaction live at the same time is granted all its requests, stays active and
can commit. Serial runs and runs on disjoint objects are special cases.
-/

namespace Isolation

namespace Running

variable {running : Running} {asked total : List Access} {id : TxnId} {company : TxnId → Prop}

/-- The invariant `Engine.ConflictFree` for the running engine, with some history. -/
def ConflictFree (running : Running) (id : TxnId) (company : TxnId → Prop)
    (total : List Access) : Prop :=
  running.Holds fun engine => ∃ past, engine.ConflictFree past id company total

theorem Holds.begin (accounted : running.Holds (Engine.Accounted asked))
    (included : ∀ access ∈ asked, access ∈ total)
    (begun : (running.ask fun engine => engine.begin.1) = id)
    (present : ∀ other ∈ (running.change fun engine => engine.begin.2).ask
      fun engine => engine.roster.ids, company other)
    (apart : ∀ own ∈ total, ∀ rival ∈ total, own.id = id → rival.id ≠ id → rival.Conflicts own →
      ¬ company rival.id) :
    (running.change fun engine => engine.begin.2).ConflictFree id company total := by
  subst begun
  cases running <;>
    exact Engine.Accounted.begin accounted included
      (fun other live => present other (Roster.mem_ids.mpr live)) apart

namespace ConflictFree

theorem step (free : running.ConflictFree id company total) {call : Call}
    (included : ∀ access ∈ running.ask fun engine => engine.requests call, access ∈ total)
    (present : ∀ other ∈ (running.change fun engine => (engine.step call).2).ask
      fun engine => engine.roster.ids, company other)
    (spared : call.ends id = false) :
    (running.change fun engine => (engine.step call).2).ConflictFree id company total := by
  cases running <;>
    exact Exists.elim free fun past free => ⟨_, free.step included
      (fun other live => present other (Roster.mem_ids.mpr live)) spared⟩

theorem status?_eq (free : running.ConflictFree id company total) :
    (running.ask fun engine => engine.status? id) = some .active := by
  cases running <;> exact Exists.elim free fun past free => free.active

theorem finish_eq (free : running.ConflictFree id company total) :
    (running.ask fun engine => (engine.finish id true).1) = .ok true := by
  cases running <;> exact Exists.elim free fun past free => free.finish_eq

theorem granted (free : running.ConflictFree id company total) {call : Call}
    (included : ∀ access ∈ running.ask fun engine => engine.requests call, access ∈ total)
    (asks : call.asker? = some id) :
    ∃ grant, (running.ask fun engine => (engine.step call).1) = .judged (.allowed grant) := by
  cases running <;> exact Exists.elim free fun past free => free.granted included asks

end ConflictFree

end Running

namespace Controller

variable {controller : Controller} {id : TxnId} {asked total : List Access}
  {company : TxnId → Prop}

/-- The transaction is active, its commit would succeed, and its next request is granted. -/
def Serves (controller : Controller) (id : TxnId) (next : List Controller.Call) : Prop :=
  controller.status? id = some .active ∧ (controller.finish id true).1 = .ok true ∧
    ∀ call rest, next = .call call :: rest → call.asker? = some id →
      ∃ grant, (controller.step (.call call)).1 = .judged (.allowed grant)

/-- At most one transaction is live at any time. -/
def Serial (controller : Controller) (calls : List Controller.Call) : Prop :=
  ∀ first ∈ calls.inits, ∀ one ∈ (controller.run first).2.active,
    ∀ other ∈ (controller.run first).2.active, one = other

/-- No object is requested by two transactions. -/
def Disjoint (controller : Controller) (calls : List Controller.Call) : Prop :=
  ∀ first ∈ calls.inits, ∀ one ∈ controller.requested [] first,
    ∀ other ∈ controller.requested [] first, one.object = other.object → one.id = other.id

theorem serves_of_conflictFree (started : controller.started = true)
    (free : controller.running.ConflictFree id company total) {next : List Controller.Call}
    (included : ∀ access ∈ controller.upcoming next, access ∈ total) :
    controller.Serves id next := by
  refine ⟨free.status?_eq, ?_, ?_⟩
  · rw [finish_answer started]
    exact free.finish_eq
  · intro call rest whole asks
    subst whole
    rw [step_answer started]
    exact free.granted included asks

theorem conflictFree_step (started : controller.started = true)
    (free : controller.running.ConflictFree id company total) {call : Controller.Call}
    (spared : call.spares controller.algorithm id = true)
    (included : ∀ access ∈ controller.requests call, access ∈ total)
    (present : ∀ other ∈ (controller.step call).2.active, company other) :
    (controller.step call).2.running.ConflictFree id company total := by
  cases call with
  | start => exact free
  | switchTo target =>
      have same : controller.algorithm = target := of_decide_eq_true spared
      subst same
      rw [step_switchTo_self]
      exact free
  | call request =>
      rw [active, step_running started] at present
      rw [step_running started]
      exact free.step included present (by simpa [Call.spares] using spared)

theorem conflictFree_run (started : controller.started = true)
    (free : controller.running.ConflictFree id company total) {calls : List Controller.Call}
    (spared : ∀ call ∈ calls, call.spares controller.algorithm id = true)
    (included : ∀ access ∈ controller.requested asked calls, access ∈ total)
    (present : ∀ other, controller.company calls other → company other) :
    (controller.run calls).2.started = true ∧
      (controller.run calls).2.running.ConflictFree id company total := by
  induction calls generalizing controller asked with
  | nil => exact ⟨started, free⟩
  | cons call rest ih =>
      obtain ⟨first, later⟩ := spared_cons spared
      refine ih (started_of_spares started first) (conflictFree_step started free first ?_ ?_) later
        included fun other met => present other (company_cons met)
      · exact fun access asks =>
          included access (mem_requested_of_upcoming spared (List.mem_append_right _ asks))
      · exact fun other live => present other (company_cons (company_of_active live))

theorem serves_of_apart (accounted : controller.Accounted asked)
    (begun : controller.begin.1 = .ok id) {during next : List Controller.Call}
    (spared : ∀ call ∈ during, call.spares controller.begin.2.algorithm id = true)
    (included : ∀ access ∈ controller.requested asked (.call .begin :: during), access ∈ total)
    (upcoming : ∀ access ∈ (controller.begin.2.run during).2.upcoming next, access ∈ total)
    (apart : ∀ own ∈ total, ∀ rival ∈ total, own.id = id → rival.id ≠ id → rival.Conflicts own →
      ¬ controller.begin.2.company during rival.id) :
    (controller.begin.2.run during).2.Serves id next := by
  have started := started_of_begin begun
  have noted : controller.note asked (.call .begin) = asked ++ controller.requests (.call .begin) :=
    if_pos (controller.algorithm_step_call .begin)
  have before : ∀ access ∈ asked, access ∈ total := fun access old => by
    refine included access (mem_requested during spared ?_)
    rw [noted]
    exact List.mem_append_left _ old
  have free : controller.begin.2.running.ConflictFree id (controller.begin.2.company during) total := by
    rw [begin_answer started, Except.ok.injEq] at begun
    rw [begin_running started]
    refine Running.Holds.begin accounted.engine before begun ?_ apart
    intro other live
    rw [← begin_running started] at live
    exact company_of_active live
  have going : (controller.step (.call .begin)).2.started = true := step_started started (by simp)
  obtain ⟨stillStarted, stillFree⟩ :=
    conflictFree_run going free spared included fun other met => met
  exact serves_of_conflictFree stillStarted stillFree upcoming

theorem serves_of_unopposed (accounted : controller.Accounted [])
    {before first next : List Controller.Call} (begun : (controller.run before).2.begin.1 = .ok id)
    (spared : ∀ call ∈ first ++ next,
      call.spares (controller.run before).2.begin.2.algorithm id = true)
    (apart : ∀ own ∈ controller.requested [] (before ++ .call .begin :: (first ++ next)),
      ∀ rival ∈ controller.requested [] (before ++ .call .begin :: (first ++ next)),
        own.id = id → rival.id ≠ id → rival.Conflicts own →
          ¬ (controller.run before).2.begin.2.company (first ++ next) rival.id) :
    ((controller.run before).2.begin.2.run first).2.Serves id next := by
  rw [List.forall_mem_append] at spared
  have known {access : Access}
      (member : access ∈ controller.requested [] (before ++ .call .begin :: first) ++
        ((controller.run before).2.begin.2.run first).2.upcoming next) :
      access ∈ controller.requested [] (before ++ .call .begin :: (first ++ next)) := by
    have parted : before ++ .call .begin :: (first ++ next) =
        (before ++ .call .begin :: first) ++ next := by simp
    have state : (controller.run (before ++ .call .begin :: first)).2 =
        ((controller.run before).2.begin.2.run first).2 := controller.run_append before _
    have later := spared.2
    rw [← algorithm_run spared.1] at later
    rw [parted, requested_append, state]
    exact mem_requested_of_upcoming later member
  have included : ∀ access ∈ (controller.run before).2.requested (controller.requested [] before)
      (.call .begin :: first),
      access ∈ controller.requested [] (before ++ .call .begin :: (first ++ next)) := by
    intro access member
    rw [← requested_append] at member
    exact known (List.mem_append_left _ member)
  refine serves_of_apart (accounted.run before) begun spared.1 included ?_ ?_
  · exact fun access member => known (List.mem_append_right _ member)
  · exact fun own mine rival asked same different conflict met =>
      apart own mine rival asked same different conflict (company_mono met)

namespace Serial

theorem company_eq {before during next : List Controller.Call} {other : TxnId}
    (accounted : controller.Accounted asked)
    (serial : controller.Serial (before ++ .call .begin :: (during ++ next)))
    (begun : (controller.run before).2.begin.1 = .ok id)
    (spared : ∀ call ∈ during, call.spares (controller.run before).2.begin.2.algorithm id = true)
    (met : (controller.run before).2.begin.2.company during other) : other = id := by
  obtain ⟨prior, initial, live⟩ := met
  rw [List.mem_inits] at initial
  obtain ⟨rest, rfl⟩ := initial
  -- At that time both transactions are live, so they are equal in a serial run.
  have born := (mem_active_of_step (accounted.run before) (.call .begin)).mpr (.inr ⟨rfl, begun⟩)
  have own := mem_active_run ((accounted.run before).step (.call .begin)) born
    (fun call member => spared call (List.mem_append_left _ member))
  have state : (controller.run (before ++ .call .begin :: prior)).2 =
      ((controller.run before).2.begin.2.run prior).2 := controller.run_append before _
  refine serial (before ++ .call .begin :: prior) ?_ other (state ▸ live) id (state ▸ own)
  rw [List.mem_inits]
  exact ⟨rest ++ next, by simp⟩

theorem serves (accounted : controller.Accounted []) (nobody : controller.active = [])
    {first next : List Controller.Call} (serial : controller.Serial (first ++ next))
    (live : id ∈ (controller.run first).2.active) : (controller.run first).2.Serves id next := by
  obtain ⟨before, during, rfl, begun, spared⟩ := exists_begin accounted nobody live
  rw [List.append_assoc] at serial
  rw [run_append]
  refine serves_of_apart (accounted.run before) begun spared
    (fun access member => List.mem_append_left _ member)
    (fun access member => List.mem_append_right _ member) ?_
  intro own _ rival _ _ different _ met
  exact different (serial.company_eq accounted begun spared met)

end Serial

namespace Disjoint

theorem eq_of_conflict {first next : List Controller.Call} {own rival : Access}
    (disjoint : controller.Disjoint (first ++ next))
    (mine : own ∈ controller.requested [] first ++ (controller.run first).2.upcoming next)
    (asked : rival ∈ controller.requested [] first ++ (controller.run first).2.upcoming next)
    (conflict : rival.Conflicts own) : rival.id = own.id := by
  obtain ⟨prior, initial, same⟩ := controller.exists_requested first next
  rw [← same] at mine asked
  exact disjoint prior initial rival asked own mine conflict.1

theorem serves (accounted : controller.Accounted []) (nobody : controller.active = [])
    {first next : List Controller.Call} (disjoint : controller.Disjoint (first ++ next))
    (live : id ∈ (controller.run first).2.active) : (controller.run first).2.Serves id next := by
  obtain ⟨before, during, rfl, begun, spared⟩ := exists_begin accounted nobody live
  have state : (controller.run (before ++ .call .begin :: during)).2 =
      ((controller.run before).2.begin.2.run during).2 := controller.run_append before _
  rw [state]
  refine serves_of_apart (accounted.run before) begun spared
    (fun access member => List.mem_append_left _ member)
    (fun access member => List.mem_append_right _ member) ?_
  intro own mine rival asked same different conflict _
  rw [← requested_append, ← state] at mine asked
  rw [← same] at different
  exact different (disjoint.eq_of_conflict mine asked conflict)

end Disjoint

end Controller

/-- Every transaction without conflicting requests is served, for every algorithm. If no request of
a transaction that is live during its lifetime conflicts with one of its own, then at each point of
its lifetime it is active, its commit would succeed and its next request is granted. In particular
this holds in serial runs and in runs on disjoint objects. -/
theorem served_of_unopposed (algorithm : Algorithm) (recovery : Option RecoveryLog) :
    let start := Controller.ofAlgorithm algorithm recovery
    (∀ before during id, (start.run before).2.begin.1 = .ok id →
      let begun := (start.run before).2.begin.2
      let requested := start.requested [] (before ++ .call .begin :: during)
      (∀ call ∈ during, call.spares begun.algorithm id = true) →
      (∀ own ∈ requested, ∀ rival ∈ requested, own.id = id → rival.id ≠ id → rival.Conflicts own →
        ¬ begun.company during rival.id) →
      ∀ first next, first ++ next = during → (begun.run first).2.Serves id next) ∧
    (∀ calls, start.Serial calls → ∀ first next, first ++ next = calls →
      ∀ id ∈ (start.run first).2.active, (start.run first).2.Serves id next) ∧
    (∀ calls, start.Disjoint calls → ∀ first next, first ++ next = calls →
      ∀ id ∈ (start.run first).2.active, (start.run first).2.Serves id next) := by
  intro start
  have accounted : start.Accounted [] := Controller.ofAlgorithm_accounted algorithm recovery
  have nobody : start.active = [] := Running.fresh_ids recovery algorithm
  refine ⟨?_, ?_, ?_⟩
  · intro before during id beginning begun requested spared apart first next whole
    subst whole
    exact Controller.serves_of_unopposed accounted beginning spared apart
  · intro calls serial first next whole id live
    subst whole
    exact serial.serves accounted nobody live
  · intro calls disjoint first next whole id live
    subst whole
    exact disjoint.serves accounted nobody live

/-- A reader is served although a transaction committed before its `begin` wrote the same object, and a
concurrent one writes and commits another object. -/
theorem served_of_unopposed_reader :
    let start := Controller.ofAlgorithm .validation none
    let before : List Controller.Call :=
      [.start, .call .begin, .call (.access "x" 1 .write), .call (.finish 1 true)]
    let during : List Controller.Call :=
      [.call .begin, .call (.access "y" 3 .write), .call (.finish 3 true)]
    let next : List Controller.Call := [.call (.accessAll ["x", "z"] 2 .read)]
    let begun := (start.run before).2.begin.2
    let requested := start.requested [] (before ++ .call .begin :: (during ++ next))
    (start.run before).2.begin.1 = .ok 2 ∧
    (∀ call ∈ during ++ next, call.spares begun.algorithm 2 = true) ∧
    (∀ own ∈ requested, ∀ rival ∈ requested, own.id = 2 → rival.id ≠ 2 → rival.Conflicts own →
      ¬ begun.company (during ++ next) rival.id) ∧
    (begun.run during).2.Serves 2 next := by
  intro start before during next begun requested
  have beginning : (start.run before).2.begin.1 = .ok 2 := rfl
  have spared : ∀ call ∈ during ++ next, call.spares begun.algorithm 2 = true := by decide
  have apart : ∀ own ∈ requested, ∀ rival ∈ requested, own.id = 2 → rival.id ≠ 2 →
      rival.Conflicts own → ¬ begun.company (during ++ next) rival.id := by decide
  exact ⟨beginning, spared, apart, (served_of_unopposed .validation none).1 before (during ++ next) 2
    beginning spared apart during next rfl⟩

end Isolation
