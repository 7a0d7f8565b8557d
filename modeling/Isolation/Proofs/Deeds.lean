import Isolation.Proofs.Numbering
import Isolation.Proofs.Ways

/-!
Runs in which protocol calls are interleaved with operations on transaction handles and direct
requests to the lock table. The statuses that a transaction visits in such a run are the
concatenation of the `passed` lists of the courses run by the program, and they form a path of the
lifecycle graph.
-/

namespace Isolation

open Status (Way)

inductive Deed where
  | call (call : Call)
  | moveTo (handle : Handle) (target : Status)
  | forceAbort (handle : Handle)
  /-- Requests a lock directly. Without effect unless the engine is a locking one. -/
  | acquire (handle : Handle) (object : ObjectId) (mode : LockMode)

namespace Transactions

variable {made later : Transactions} {handle : Handle} {txn : Transaction}

theorem absent_of_identities (same : later.identities = made.identities)
    (absent : made[handle]? = none) : later[handle]? = none := by
  have entry := congrArg (·[handle]?) same
  simpa only [identities_getElem?, absent, Option.map_none, Option.map_eq_none_iff] using entry

/-- The path is the one a transaction has gone since its creation: it leads from `active` to the
current status, and is empty before the creation. -/
def Traced (made : Transactions) (handle : Handle) (path : List Status) : Prop :=
  match made[handle]? with
  | none => path = []
  | some txn => Way .active path txn.status

theorem Traced.way {path : List Status} (traced : Traced made handle path)
    (present : made[handle]? = some txn) : Way .active path txn.status := by
  simpa only [Traced, present] using traced

theorem Traced.append {path onward : List Status} (traced : Traced made handle path)
    (born : made[handle]? = none → onward = [] ∧
      ∀ txn, later[handle]? = some txn → txn.status = .active)
    (goes : ∀ txn, made[handle]? = some txn →
      ∃ left, later[handle]? = some left ∧ txn.Goes onward left) :
    Traced later handle (path ++ onward) := by
  cases present : made[handle]? with
  | none =>
      obtain ⟨rfl, active⟩ := born present
      have unmoved : path = [] := by simpa only [Traced, present] using traced
      rw [unmoved, Traced]
      cases arrived : later[handle]? with
      | none => rfl
      | some txn => exact (active txn arrived).symm
  | some txn =>
      obtain ⟨left, stays, goes⟩ := goes txn present
      rw [Traced, stays]
      exact (traced.way present).append goes.way

end Transactions

namespace Engine

variable {β : Type} [Discipline β] {engine : Engine β} {handle place : Handle} {txn : Transaction}
  {path : List Status}

theorem active_of_born [Discipline.OnlyForcesAborts β] (engine : Engine β) (move : Move)
    (unborn : engine.roster.made[handle]? = none)
    (born : (engine.after move).roster.made[handle]? = some txn) : txn.status = .active := by
  by_cases begins : move = .begin
  · subst begins
    simp only [after, begin, Roster.add, Array.getElem?_push, unborn] at born
    split at born
    · cases born
      rfl
    · contradiction
  · rw [Transactions.absent_of_identities (engine.identities_after begins) unborn] at born
    contradiction

theorem traced_after [Discipline.OnlyForcesAborts β] (traced : engine.roster.made.Traced handle path)
    (move : Move) : (engine.after move).roster.made.Traced handle (path ++ engine.way handle move) :=
  traced.append
    (fun unborn => ⟨by simp only [way, unborn], fun _ => engine.active_of_born move unborn⟩)
    (fun _ => engine.exists_goes_after move)

theorem traced_moves [Discipline.OnlyForcesAborts β] (traced : engine.roster.made.Traced handle path)
    (moves : List Move) :
    (moves.foldl after engine).roster.made.Traced handle (path ++ engine.wayOf handle moves) := by
  induction moves generalizing engine path with
  | nil => simpa [wayOf] using traced
  | cons move rest ih =>
      rw [wayOf, ← List.append_assoc]
      exact ih (traced_after traced move)

theorem exists_goes_moves [Discipline.OnlyForcesAborts β] (engine : Engine β) (moves : List Move)
    (present : engine.roster.made[handle]? = some txn) :
    ∃ left, (moves.foldl after engine).roster.made[handle]? = some left ∧
      txn.Goes (engine.wayOf handle moves) left := by
  induction moves generalizing engine txn with
  | nil => exact ⟨txn, present, .stay txn⟩
  | cons move rest ih =>
      obtain ⟨left, stays, first⟩ := engine.exists_goes_after move present
      obtain ⟨last, remains, second⟩ := ih (engine.after move) stays
      exact ⟨last, remains, first.append second⟩

theorem Orderly.step [Discipline.PreservesIdentities β] (orderly : engine.Orderly) (call : Call) :
    (engine.step call).2.Orderly := by
  rw [step_eq_moves]
  generalize engine.moves call = moves
  induction moves generalizing engine with
  | nil => exact orderly
  | cons move rest ih => exact ih (orderly.after move)

omit [Discipline β] in
theorem touch_frame (engine : Engine β) (place : Handle) (touch : Transaction.Touch) :
    (engine.touch place touch).2.roster.live = engine.roster.live ∧
      (engine.touch place touch).2.last = engine.last ∧
      (engine.touch place touch).2.books = engine.books := by
  unfold Engine.touch
  split
  · exact ⟨rfl, rfl, rfl⟩
  · split <;> exact ⟨rfl, rfl, rfl⟩

omit [Discipline β] in
theorem touch_failed {touch : Transaction.Touch} {reason : TransitionError}
    (failed : (engine.touch place touch).1 = some (.error reason)) :
    (engine.touch place touch).2 = engine := by
  unfold Engine.touch at failed ⊢
  split at failed
  · contradiction
  · split at failed
    · rfl
    · simp at failed

omit [Discipline β] in
theorem touch_made (engine : Engine β) (place : Handle) (touch : Transaction.Touch)
    (handle : Handle) :
    (engine.touch place touch).2.roster.made[handle]? = engine.roster.made[handle]?.map fun txn =>
      if place = handle then (txn.touch touch).toOption.getD txn else txn := by
  unfold Engine.touch
  by_cases here : place = handle
  · subst here
    cases present : engine.roster.made[place]? with
    | none => simp [present]
    | some txn =>
        cases outcome : txn.touch touch with
        | error reason => simp [present, outcome, Except.toOption]
        | ok left =>
            have inBounds := (Array.getElem?_eq_some_iff.mp present).1
            simp only [outcome, Except.toOption, Roster.put, Array.getElem?_setIfInBounds_self,
              if_pos inBounds, Option.map_some, if_true, Option.getD_some]
  · simp only [if_neg here, Option.map_id_fun']
    split
    · rfl
    · split
      · rfl
      · exact Array.getElem?_setIfInBounds_ne here

omit [Discipline β] in
theorem touch_identities (engine : Engine β) (place : Handle) {touch : Transaction.Touch}
    (keeps : ∀ {txn left : Transaction}, txn.touch touch = .ok left → left.identity = txn.identity) :
    Transactions.identities (engine.touch place touch).2.roster.made =
      Transactions.identities engine.roster.made := by
  unfold Engine.touch
  split
  · rfl
  · rename_i txn present
    split
    · rfl
    · rename_i left touched
      exact Transactions.identities_set present (keeps touched)

theorem Orderly.touch (orderly : engine.Orderly) (place : Handle) {touch : Transaction.Touch}
    (keeps : ∀ {txn left : Transaction}, txn.touch touch = .ok left → left.identity = txn.identity) :
    (engine.touch place touch).2.Orderly := by
  obtain ⟨live, last, _⟩ := engine.touch_frame place touch
  exact orderly.of_kept last (engine.touch_identities place keeps)
    (fun seat => by rw [← live]; exact seat)

theorem Orderly.acquire {engine : Engine Locking} (orderly : engine.Orderly) (place : Handle)
    (object : ObjectId) (mode : LockMode) : (engine.acquire place object mode).2.Orderly :=
  orderly.of_kept rfl (LockTable.acquire_identities _ _ _ _ _) (fun seat => seat)

end Engine

namespace Transaction

theorem goes_moveTo (txn : Transaction) (target : Status) :
    txn.Goes (txn.course.tryMoveTo target).passed
      ((txn.touch (.moveTo target)).toOption.getD txn) := by
  have same : (txn.touch (.moveTo target)).toOption.getD txn = (txn.course.tryMoveTo target).txn := by
    simp only [touch, Course.tryMoveTo, Course.moveTo, course]
    cases txn.moveTo target <;> rfl
  rw [same]
  exact goes_of_continues (txn.course.continues_tryMoveTo target)

theorem identity_of_moved {txn left : Transaction} {target : Status}
    (touched : txn.touch (.moveTo target) = .ok left) : left.identity = txn.identity :=
  moveTo_identity touched

theorem identity_of_forced {txn left : Transaction} (touched : txn.touch .forceAbort = .ok left) :
    left.identity = txn.identity := by
  cases touched
  exact txn.forceAbort_identity

end Transaction

namespace Running

variable {running : Running} {handle : Handle} {txn : Transaction} {path : List Status}

def made (running : Running) : Transactions :=
  running.ask fun engine => engine.roster.made

def handle? (running : Running) (id : TxnId) : Option Handle :=
  running.ask fun engine => engine.roster.handle? id

def touch (running : Running) (handle : Handle) (touch : Transaction.Touch) :
    Option (Except TransitionError Transaction) × Running :=
  running.act fun engine => engine.touch handle touch

def acquire (running : Running) (handle : Handle) (object : ObjectId) (mode : LockMode) : Running :=
  match running with
  | lock engine => lock (engine.acquire handle object mode).2
  | timestamp _ | validation _ => running

def after (running : Running) : Deed → Running
  | .call call => running.change fun engine => (engine.step call).2
  | .moveTo handle target => (running.touch handle (.moveTo target)).2
  | .forceAbort handle => (running.touch handle .forceAbort).2
  | .acquire handle object mode => running.acquire handle object mode

/-- The statuses that a deed moves a transaction through. For calls and handle operations this is
`passed` of the courses that the program runs; a lock request only applies `forceAbort`. -/
def way (running : Running) (handle : Handle) : Deed → List Status
  | .call call => running.ask fun engine => engine.wayOf handle (engine.moves call)
  | .moveTo place target =>
      if place = handle then
        running.made[handle]?.elim [] fun txn => (txn.course.tryMoveTo target).passed
      else []
  | .forceAbort place =>
      if place = handle then running.made[handle]?.elim [] (·.course.forceAbort.passed) else []
  | .acquire place object mode => running.made.rolled (running.acquire place object mode).made handle

/-- The statuses that a sequence of deeds moves a transaction through, in order. -/
def visited (running : Running) (handle : Handle) : List Deed → List Status
  | [] => []
  | deed :: rest => running.way handle deed ++ (running.after deed).visited handle rest

theorem visited_append (running : Running) (handle : Handle) (first rest : List Deed) :
    running.visited handle (first ++ rest) =
      running.visited handle first ++ (first.foldl after running).visited handle rest := by
  induction first generalizing running with
  | nil => rfl
  | cons deed first ih =>
      rw [List.cons_append, visited, visited, ih, List.append_assoc, List.foldl_cons]

theorem touch_made (running : Running) (place : Handle) (touch : Transaction.Touch)
    (handle : Handle) :
    (running.touch place touch).2.made[handle]? = running.made[handle]?.map fun txn =>
      if place = handle then (txn.touch touch).toOption.getD txn else txn := by
  cases running <;> exact Engine.touch_made _ place touch handle

theorem acquire_made_cases (running : Running) (place : Handle) (object : ObjectId)
    (mode : LockMode) (handle : Handle) :
    (running.acquire place object mode).made[handle]? = running.made[handle]? ∨
      (running.acquire place object mode).made[handle]? =
        running.made[handle]?.map Transaction.forceAbort := by
  cases running with
  | lock engine => exact LockTable.acquire_made_cases _ _ _ _ _ _
  | timestamp engine | validation engine => exact .inl rfl

/-- Every deed preserves the identity of a transaction and moves it along `way`. -/
theorem exists_goes_after (running : Running) (deed : Deed)
    (present : running.made[handle]? = some txn) :
    ∃ left, (running.after deed).made[handle]? = some left ∧
      txn.Goes (running.way handle deed) left := by
  cases deed with
  | call call =>
      cases running <;>
        simp only [after, change, Engine.step_eq_moves] <;>
        exact Engine.exists_goes_moves _ _ present
  | moveTo place target =>
      have touched := running.touch_made place (.moveTo target) handle
      rw [present, Option.map_some] at touched
      refine ⟨_, touched, ?_⟩
      simp only [way, present, Option.elim_some]
      split
      · exact txn.goes_moveTo target
      · exact .stay txn
  | forceAbort place =>
      have touched := running.touch_made place .forceAbort handle
      rw [present, Option.map_some] at touched
      refine ⟨_, touched, ?_⟩
      simp only [way, present, Option.elim_some]
      split
      · exact txn.goes_forceAbort
      · exact .stay txn
  | acquire place object mode =>
      exact Transactions.exists_goes_rolled present
        (running.acquire_made_cases place object mode handle)

theorem exists_goes_visited (running : Running) (deeds : List Deed)
    (present : running.made[handle]? = some txn) :
    ∃ left, (deeds.foldl after running).made[handle]? = some left ∧
      txn.Goes (running.visited handle deeds) left := by
  induction deeds generalizing running txn with
  | nil => exact ⟨txn, present, .stay txn⟩
  | cons deed rest ih =>
      obtain ⟨left, stays, first⟩ := running.exists_goes_after deed present
      obtain ⟨last, remains, second⟩ := ih (running.after deed) stays
      exact ⟨last, remains, first.append second⟩

/-- A deed that is not a call creates no transaction. -/
theorem absent_after {deed : Deed} (uncalled : ∀ call, deed ≠ .call call)
    (absent : running.made[handle]? = none) :
    (running.after deed).made[handle]? = none ∧ running.way handle deed = [] := by
  cases deed with
  | call call => exact absurd rfl (uncalled call)
  | moveTo place target => simp [after, touch_made, way, absent]
  | forceAbort place => simp [after, touch_made, way, absent]
  | acquire place object mode =>
      have still : (running.acquire place object mode).made[handle]? = none := by
        rcases running.acquire_made_cases place object mode handle with same | aborted
        · rw [same, absent]
        · rw [aborted, absent, Option.map_none]
      exact ⟨still, by simp only [way, Transactions.rolled, absent]⟩

theorem traced_after (traced : running.made.Traced handle path) (deed : Deed) :
    (running.after deed).made.Traced handle (path ++ running.way handle deed) := by
  have uncalled (other : ∀ call, deed ≠ .call call) :
      (running.after deed).made.Traced handle (path ++ running.way handle deed) := by
    refine traced.append (fun absent => ?_) fun _ => running.exists_goes_after deed
    obtain ⟨still, none⟩ := absent_after other absent
    refine ⟨none, fun txn born => ?_⟩
    rw [still] at born
    contradiction
  cases deed with
  | call call =>
      cases running <;>
        simp only [after, change, Engine.step_eq_moves] <;>
        exact Engine.traced_moves traced _
  | moveTo _ _ | forceAbort _ | acquire _ _ _ => exact uncalled (by simp)

theorem traced_visited (traced : running.made.Traced handle path) (deeds : List Deed) :
    (deeds.foldl after running).made.Traced handle (path ++ running.visited handle deeds) := by
  induction deeds generalizing running path with
  | nil => simpa [visited] using traced
  | cons deed rest ih =>
      rw [visited, ← List.append_assoc]
      exact ih (traced_after traced deed)

theorem fresh_traced (recovery : Option RecoveryLog) (algorithm : Algorithm) (handle : Handle) :
    (fresh recovery algorithm).made.Traced handle [] := by
  cases algorithm <;> rfl

theorem orderly_after (orderly : running.Holds fun engine => engine.Orderly) (deed : Deed) :
    (running.after deed).Holds fun engine => engine.Orderly := by
  cases deed with
  | call call => cases running <;> exact Engine.Orderly.step orderly call
  | moveTo place target =>
      cases running <;> exact Engine.Orderly.touch orderly place Transaction.identity_of_moved
  | forceAbort place =>
      cases running <;> exact Engine.Orderly.touch orderly place Transaction.identity_of_forced
  | acquire place object mode =>
      cases running with
      | lock engine => exact Engine.Orderly.acquire orderly place object mode
      | timestamp engine | validation engine => exact orderly

theorem orderly_deeds (orderly : running.Holds fun engine => engine.Orderly) (deeds : List Deed) :
    (deeds.foldl after running).Holds fun engine => engine.Orderly := by
  induction deeds generalizing running with
  | nil => exact orderly
  | cons deed rest ih => exact ih (orderly_after orderly deed)

theorem fresh_orderly (recovery : Option RecoveryLog) (algorithm : Algorithm) :
    (fresh recovery algorithm).Holds fun engine => engine.Orderly := by
  cases algorithm with
  | lock => exact Locking.initial_orderly recovery
  | timestamp | validation => exact Engine.fresh_orderly

/-- `finish` answers with a commit if and only if its course passes `committed`. -/
theorem committed_mem_way_finish {id : TxnId} (seat : running.handle? id = some handle)
    (present : running.made[handle]? = some txn) (commit : Bool) :
    .committed ∈ running.way handle (.call (.finish id commit)) ↔
      (running.ask fun engine => (engine.finish id commit).1) = .ok true := by
  cases running <;>
    simp only [way, ask, Engine.moves, Engine.wayOf, List.append_nil] <;>
    exact Engine.committed_mem_way (Roster.find?_eq_some.mpr ⟨seat, present⟩) commit

theorem touch_failed {place : Handle} {touch : Transaction.Touch} {reason : TransitionError}
    (failed : (running.touch place touch).1 = some (.error reason)) :
    (running.touch place touch).2 = running := by
  cases running <;> exact congrArg _ (Engine.touch_failed failed)

end Running

/-- Lifecycle legality, for any engine and any sequence of calls, handle operations and direct lock
requests. The visited statuses of each transaction form a path of the lifecycle graph from `active`
to its status, which does not contain both `committed` and `aborted`; every further deed extends it
by legal edges. A terminated transaction changes in nothing but its log. `finish` answers with a
commit if and only if the transaction passes `committed`, and a refused transition is the identity
on the engine. -/
theorem life_along_edges (algorithm : Algorithm) (recovery : Option RecoveryLog)
    (deeds : List Deed) :
    let start := Running.fresh recovery algorithm
    let running := deeds.foldl Running.after start
    (∀ handle txn, running.made[handle]? = some txn →
      Way .active (start.visited handle deeds) txn.status ∧
      ¬ (.committed ∈ start.visited handle deeds ∧ .aborted ∈ start.visited handle deeds) ∧
      (∀ deed, ∃ left, (running.after deed).made[handle]? = some left ∧
        Way txn.status (running.way handle deed) left.status) ∧
      (txn.status = .terminated → ∀ rest : List Deed, ∃ left,
        (rest.foldl Running.after running).made[handle]? = some left ∧
          left = { txn with log := left.log }) ∧
      ∀ id commit, running.handle? id = some handle →
        (.committed ∈ running.way handle (.call (.finish id commit)) ↔
          (running.ask fun engine => (engine.finish id commit).1) = .ok true)) ∧
    ∀ handle target reason, (running.touch handle (.moveTo target)).1 = some (.error reason) →
      (running.touch handle (.moveTo target)).2 = running := by
  intro start running
  refine ⟨fun handle txn present => ?_, fun handle target reason failed => Running.touch_failed failed⟩
  have way : Way .active (start.visited handle deeds) txn.status :=
    (Running.traced_visited (Running.fresh_traced recovery algorithm handle) deeds).way present
  refine ⟨way, fun both => ?_, fun deed => ?_, fun ended rest => ?_, fun id commit seat =>
    Running.committed_mem_way_finish seat present commit⟩
  · exact way.apart (List.mem_cons_of_mem _ both.2) rfl (List.mem_cons_of_mem _ both.1)
  · obtain ⟨left, stays, goes⟩ := running.exists_goes_after deed present
    exact ⟨left, stays, goes.way⟩
  · obtain ⟨left, stays, goes⟩ := running.exists_goes_visited rest present
    exact ⟨left, stays, goes.of_terminated ended⟩

/-- The older of two writers commits; the younger one is wounded and ends aborted although it
requests a commit. -/
example :
    let start := Running.fresh none .lock
    let deeds : List Deed := [.call .begin, .call .begin, .call (.access "x" 2 .write),
      .call (.access "x" 1 .write), .call (.finish 2 true), .call (.access "x" 1 .write),
      .call (.finish 1 true)]
    start.visited 0 deeds = [.partiallyCommitted, .committed, .terminated] ∧
      start.visited 1 deeds = [.failed, .aborted, .terminated] := by
  decide

end Isolation
