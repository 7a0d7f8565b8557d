import Isolation.Proofs.Standing

/-!
The statuses that a transaction passes in a move of an engine, taken from the courses that the move
runs. They form a path of the lifecycle graph from the status before to the status after the move.
-/

namespace Isolation

open Status (Way)

namespace Transaction

variable {txn left last : Transaction} {path rest : List Status}

/-- The path leads from the status of one transaction to that of the other, and their identities
agree. -/
structure Goes (txn : Transaction) (path : List Status) (left : Transaction) : Prop where
  identity : left.identity = txn.identity
  way : Way txn.status path left.status

theorem Goes.stay (txn : Transaction) : txn.Goes [] txn := ⟨rfl, rfl⟩

theorem Goes.append (first : txn.Goes path left) (second : left.Goes rest last) :
    txn.Goes (path ++ rest) last :=
  ⟨second.identity.trans first.identity, first.way.append second.way⟩

theorem Goes.of_terminated (goes : txn.Goes path left) (ended : txn.status = .terminated) :
    left = { txn with log := left.log } := by
  obtain ⟨identity, way⟩ := goes
  rw [ended] at way
  obtain ⟨id, status, timestamp, log⟩ := txn
  obtain ⟨leftId, leftStatus, leftTimestamp, leftLog⟩ := left
  cases identity
  cases ended
  cases way.of_terminated.2
  rfl

/-- A continuation of the initial course yields the path that it has passed. -/
theorem goes_of_continues {course : Course} (continues : txn.course.Continues course) :
    txn.Goes course.passed course.txn := by
  obtain ⟨path, passed, way⟩ := continues.way
  refine ⟨?_, ?_⟩
  · rw [continues.txn]
    rfl
  · rw [passed]
    exact way

theorem goes_forceAbort (txn : Transaction) :
    txn.Goes txn.course.forceAbort.passed txn.forceAbort :=
  goes_of_continues txn.course.continues_forceAbort

end Transaction

namespace Transactions

variable {made next : Transactions} {handle : Handle} {txn : Transaction}

/-- The statuses passed by `forceAbort` if the status of the transaction has changed, and none
otherwise. -/
def rolled (made next : Transactions) (handle : Handle) : List Status :=
  match made[handle]?, next[handle]? with
  | some txn, some left => if left.status = txn.status then [] else txn.course.forceAbort.passed
  | _, _ => []

/-- `rolled` loses no step of a rollback: a `forceAbort` that leaves the status passes nothing. -/
theorem rolled_of_forced (present : made[handle]? = some txn)
    (forced : next[handle]? = some txn.forceAbort) :
    rolled made next handle = txn.course.forceAbort.passed := by
  simp only [rolled, present, forced]
  split
  · rename_i still
    obtain ⟨id, status, timestamp, log⟩ := txn
    cases status <;> first | rfl | contradiction
  · rfl

theorem exists_goes_rolled (present : made[handle]? = some txn)
    (rolledBack : next[handle]? = made[handle]? ∨
      next[handle]? = made[handle]?.map Transaction.forceAbort) :
    ∃ left, next[handle]? = some left ∧ txn.Goes (rolled made next handle) left := by
  rcases rolledBack with same | back
  · refine ⟨txn, same.trans present, ?_⟩
    simp only [rolled, same, present, if_true]
    exact .stay txn
  · rw [present, Option.map_some] at back
    refine ⟨txn.forceAbort, back, ?_⟩
    rw [rolled_of_forced present back]
    exact txn.goes_forceAbort

end Transactions

namespace Engine

variable {β : Type} [Discipline β] {engine : Engine β} {handle : Handle} {txn : Transaction}

theorem goes_conclude (books : β) (txn : Transaction) (commit : Bool) :
    txn.Goes (conclude books txn commit).course.passed (conclude books txn commit).txn :=
  Transaction.goes_of_continues (continues_conclude books txn commit)

/-- The statuses that a move takes a transaction through: `passed` of the course run by the program. -/
def way (engine : Engine β) (handle : Handle) (move : Move) : List Status :=
  match engine.roster.made[handle]? with
  | none => []
  | some txn =>
      match move with
      | .begin | .log _ _ => []
      | .access _ _ _ =>
          Transactions.rolled engine.roster.made (engine.after move).roster.made handle
      | .finish id commit =>
          if engine.roster.handle? id = some handle then
            (conclude engine.books txn commit).course.passed
          else []
      | .evict id => if engine.roster.handle? id = some handle then (expel txn).passed else []

/-- The statuses that a sequence of moves takes a transaction through, in order. -/
def wayOf (engine : Engine β) (handle : Handle) : List Move → List Status
  | [] => []
  | move :: rest => engine.way handle move ++ (engine.after move).wayOf handle rest

omit [Discipline β] in
theorem log_goes {id : TxnId} {row : Row} (present : engine.roster.made[handle]? = some txn) :
    ∃ left, (engine.log id row).roster.made[handle]? = some left ∧ txn.Goes [] left := by
  unfold log
  split
  · exact ⟨txn, present, .stay txn⟩
  · rename_i place logging found
    simp only [Roster.put, Array.getElem?_setIfInBounds]
    split
    · rename_i here
      subst here
      have inBounds := (Array.getElem?_eq_some_iff.mp present).1
      have same := Option.some.inj ((Roster.find?_eq_some.mp found).2.symm.trans present)
      subst same
      rw [if_pos inBounds]
      exact ⟨_, rfl, logging.append_identity row, rfl⟩
    · exact ⟨txn, present, .stay txn⟩

omit [Discipline β] in
/-- A move that removes at most one transaction from the roster, after moving it along a path, moves
every other transaction along the empty path. -/
theorem exists_goes_leave {next : Engine β} {id : TxnId} (path : Transaction → List Status)
    (absent : engine.roster.find? id = none → next = engine)
    (leaves : ∀ place leaving, engine.roster.find? id = some (place, leaving) →
      ∃ left, next.roster = (engine.roster.put place left).remove id ∧
        leaving.Goes (path leaving) left)
    (present : engine.roster.made[handle]? = some txn) :
    ∃ left, next.roster.made[handle]? = some left ∧
      txn.Goes (if engine.roster.handle? id = some handle then path txn else []) left := by
  cases found : engine.roster.find? id with
  | none =>
      have unseated : engine.roster.handle? id ≠ some handle := by
        intro seat
        have standing := Roster.find?_eq_some.mpr ⟨seat, present⟩
        rw [found] at standing
        contradiction
      rw [absent found, if_neg unseated]
      exact ⟨txn, present, .stay txn⟩
  | some entry =>
      obtain ⟨place, leaving⟩ := entry
      obtain ⟨left, roster, goes⟩ := leaves place leaving found
      obtain ⟨seat, standing⟩ := Roster.find?_eq_some.mp found
      rw [roster]
      simp only [Roster.remove, Roster.put, Roster.handle?, seat, Option.some.injEq,
        Array.getElem?_setIfInBounds]
      split
      · rename_i here
        subst here
        have same := Option.some.inj (standing.symm.trans present)
        subst same
        rw [if_pos (Array.getElem?_eq_some_iff.mp present).1]
        exact ⟨left, rfl, goes⟩
      · exact ⟨txn, present, .stay txn⟩

/-- Every move preserves the identity of a transaction and moves it along `way`. -/
theorem exists_goes_after [Discipline.OnlyForcesAborts β] (engine : Engine β) (move : Move)
    (present : engine.roster.made[handle]? = some txn) :
    ∃ left, (engine.after move).roster.made[handle]? = some left ∧
      txn.Goes (engine.way handle move) left := by
  cases move with
  | begin =>
      have inBounds := (Array.getElem?_eq_some_iff.mp present).1
      simp only [way, present, after, begin, Roster.add, Array.getElem?_push,
        if_neg (Nat.ne_of_lt inBounds)]
      exact ⟨txn, rfl, .stay txn⟩
  | access object id action =>
      simp only [way, present]
      exact Transactions.exists_goes_rolled present (engine.access_made object id action handle)
  | log id row =>
      simp only [way, present]
      exact log_goes present
  | finish id commit =>
      simp only [way, present, after]
      refine exists_goes_leave (fun leaving => (conclude engine.books leaving commit).course.passed)
        (fun absent => congrArg Prod.snd (finish_absent absent commit)) (fun place leaving found => ?_)
        present
      exact ⟨_, (finish_roster found commit).1, goes_conclude engine.books leaving commit⟩
  | evict id =>
      simp only [way, present, after]
      refine exists_goes_leave (fun leaving => (expel leaving).passed) evict_absent
        (fun place leaving found => ?_) present
      have roster : (engine.evict id).roster =
          (engine.roster.put place (expel leaving).txn).remove id := by
        rw [evict, found]
      exact ⟨_, roster, Transaction.goes_of_continues (continues_expel leaving)⟩

theorem finish_eq_true {id : TxnId} (found : engine.roster.find? id = some (handle, txn))
    (commit : Bool) : (engine.finish id commit).1 = .ok true ↔
      (conclude engine.books txn commit).outcome = .ok true := by
  simp only [finish, found]
  split <;> rename_i outcome <;> simp [outcome]

theorem committed_mem_way {id : TxnId} (found : engine.roster.find? id = some (handle, txn))
    (commit : Bool) :
    .committed ∈ engine.way handle (.finish id commit) ↔ (engine.finish id commit).1 = .ok true := by
  obtain ⟨seat, present⟩ := Roster.find?_eq_some.mp found
  rw [finish_eq_true found, ← committed_mem_passed]
  simp only [way, present, Roster.handle?, seat, if_true]

end Engine

end Isolation
