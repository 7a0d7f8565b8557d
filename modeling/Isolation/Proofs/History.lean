import Isolation.Proofs.Engine

/-!
Histories of runs: the granted accesses and the ends of transactions, in order of occurrence. A
batch contributes its granted accesses also if it is refused.

Each event of a history occurs in a move from a reached state, so an invariant of the reached states
yields a property of the history.
-/

namespace Isolation

/-- An action of a transaction on an object. -/
structure Access where
  id : TxnId
  object : ObjectId
  action : Action
  deriving DecidableEq

/-- Accesses to the same object conflict unless both are reads. -/
def Access.Conflicts (first second : Access) : Prop :=
  first.object = second.object ∧ (first.action = .write ∨ second.action = .write)

theorem Access.Conflicts.symm {first second : Access} (conflict : first.Conflicts second) :
    second.Conflicts first :=
  ⟨conflict.1.symm, conflict.2.symm⟩

instance (first second : Access) : Decidable (first.Conflicts second) :=
  inferInstanceAs (Decidable (_ ∧ _))

inductive Event where
  | granted (access : Access)
  | committed (id : TxnId)
  /-- The end of a transaction without a commit. -/
  | dropped (id : TxnId)
  deriving DecidableEq

namespace Event

/-- The transaction of an event. -/
def id : Event → TxnId
  | granted access => access.id
  | committed id | dropped id => id

def access? : Event → Option Access
  | granted access => some access
  | committed _ | dropped _ => none

def committed? : Event → Option TxnId
  | committed id => some id
  | granted _ | dropped _ => none

def ends : Event → TxnId → Bool
  | granted _, _ => false
  | committed ended, id | dropped ended, id => ended = id

theorem eq_of_committed? {event : Event} {id : TxnId} (commits : event.committed? = some id) :
    event = .committed id := by
  cases event with
  | committed other =>
      cases commits
      rfl
  | granted access | dropped other => contradiction

theorem id_of_ends {event : Event} {id : TxnId} (ended : event.ends id) : event.id = id := by
  cases event with
  | granted access => contradiction
  | committed other | dropped other => simpa [ends, Event.id] using ended

end Event

def accesses (history : List Event) : List Access :=
  history.filterMap Event.access?

theorem mem_accesses {history : List Event} {access : Access} :
    access ∈ accesses history ↔ .granted access ∈ history := by
  simp only [accesses, List.mem_filterMap]
  constructor
  · intro given
    obtain ⟨event, member, same⟩ := given
    cases event with
    | granted other =>
        cases same
        exact member
    | committed id | dropped id => contradiction
  · exact fun member => ⟨_, member, rfl⟩

theorem accesses_append (past events : List Event) :
    accesses (past ++ events) = accesses past ++ accesses events :=
  List.filterMap_append

/-- The transactions that were granted an access of the given kind, in order of the grants. -/
def grantees (kind : Access → Bool) (history : List Event) : List TxnId :=
  ((accesses history).filter kind).map Access.id

theorem grantees_append (kind : Access → Bool) (past events : List Event) :
    grantees kind (past ++ events) = grantees kind past ++ grantees kind events := by
  rw [grantees, accesses_append, List.filter_append, List.map_append]
  rfl

theorem mem_grantees {kind : Access → Bool} {history : List Event} {id : TxnId} :
    id ∈ grantees kind history ↔
      ∃ access, .granted access ∈ history ∧ kind access = true ∧ access.id = id := by
  simp only [grantees, List.mem_map, List.mem_filter, mem_accesses, and_assoc]

/-- No event of a transaction follows its end. -/
def Settled (history : List Event) : Prop :=
  history.Pairwise fun earlier later => ∀ id, earlier.ends id = true → later.id ≠ id

namespace Engine

variable {β : Type} [Discipline β] {engine start : Engine β}

/-- The events of a move. `committed` occurs only if `finish` answers with a commit. -/
def events (engine : Engine β) : Move → List Event
  | .access object id action =>
      if (engine.access object id action).1.isAllowed then [.granted { id, object, action }] else []
  | .finish id commit =>
      match (engine.finish id commit).1 with
      | .ok true => [.committed id]
      | .error (.unknownTransaction _) => []
      | .ok false | .error _ => [.dropped id]
  | .evict id => if (engine.roster.find? id).isSome then [.dropped id] else []
  | .begin | .log _ _ => []

def eventsOf (engine : Engine β) : List Move → List Event
  | [] => []
  | move :: rest => engine.events move ++ (engine.after move).eventsOf rest

def history (engine : Engine β) : List Call → List Event
  | [] => []
  | call :: rest => engine.eventsOf (engine.moves call) ++ (engine.step call).2.history rest

/-- Reachability by moves, indexed with the history of the moves. -/
inductive Reaches (start : Engine β) : List Event → Engine β → Prop where
  | start : Reaches start [] start
  | move {past : List Event} {engine : Engine β} (reached : Reaches start past engine)
      (move : Move) : Reaches start (past ++ engine.events move) (engine.after move)

theorem kept_by_moves {P : Engine β → List Event → Prop}
    (keep : ∀ {engine past}, P engine past → ∀ move,
      P (engine.after move) (past ++ engine.events move))
    {past : List Event} (holds : P engine past) (moves : List Move) :
    P (moves.foldl after engine) (past ++ engine.eventsOf moves) := by
  induction moves generalizing past engine with
  | nil => simpa [eventsOf] using holds
  | cons move rest ih =>
      rw [eventsOf, ← List.append_assoc]
      exact ih (keep holds move)

theorem Reaches.moves {past : List Event} (reached : Reaches start past engine)
    (moves : List Move) :
    Reaches start (past ++ engine.eventsOf moves) (moves.foldl after engine) :=
  kept_by_moves (P := fun engine past => Reaches start past engine) Reaches.move reached moves

theorem Reaches.run {past : List Event} (reached : Reaches start past engine) (calls : List Call) :
    Reaches start (past ++ engine.history calls) (engine.run calls).2 := by
  induction calls generalizing past engine with
  | nil => simpa [history, Engine.run, runWith] using reached
  | cons call rest ih =>
      have next := reached.moves (engine.moves call)
      rw [← step_eq_moves] at next
      rw [history, ← List.append_assoc]
      exact ih next

theorem reaches_run (start : Engine β) (calls : List Call) :
    Reaches start (start.history calls) (start.run calls).2 := by
  simpa using Reaches.start.run calls

/-- The moves of a run. -/
def trace (engine : Engine β) : List Call → List Move
  | [] => []
  | call :: rest => engine.moves call ++ (engine.step call).2.trace rest

theorem run_eq_trace (engine : Engine β) (calls : List Call) :
    (engine.run calls).2 = (engine.trace calls).foldl after engine := by
  induction calls generalizing engine with
  | nil => rfl
  | cons call rest ih =>
      rw [trace, List.foldl_append, ← step_eq_moves]
      exact ih (engine.step call).2

theorem eventsOf_append (engine : Engine β) (first second : List Move) :
    engine.eventsOf (first ++ second) =
      engine.eventsOf first ++ (first.foldl after engine).eventsOf second := by
  induction first generalizing engine with
  | nil => rfl
  | cons move rest ih =>
      rw [List.cons_append, eventsOf, eventsOf, ih, List.append_assoc, List.foldl_cons]

theorem history_eq_trace (engine : Engine β) (calls : List Call) :
    engine.history calls = engine.eventsOf (engine.trace calls) := by
  induction calls generalizing engine with
  | nil => rfl
  | cons call rest ih =>
      rw [history, trace, eventsOf_append, ih, ← step_eq_moves]

theorem finish_answer {id : TxnId} {handle : Handle} {txn : Transaction}
    (found : engine.roster.find? id = some (handle, txn)) (commit : Bool) :
    (engine.finish id commit).1 =
      (conclude engine.books txn commit).outcome.mapError .invalidTransition := by
  simp only [finish, found]
  split <;> rename_i outcome <;> rw [outcome] <;> rfl

theorem events_finish {id : TxnId} {handle : Handle} {txn : Transaction}
    (found : engine.roster.find? id = some (handle, txn)) (commit : Bool) :
    engine.events (.finish id commit) =
      match (conclude engine.books txn commit).outcome with
      | .ok true => [.committed id]
      | _ => [.dropped id] := by
  simp only [events, finish_answer found]
  cases (conclude engine.books txn commit).outcome with
  | error reason => rfl
  | ok committed => cases committed <;> rfl

/-- A move has at most one event, and its transaction is live before the move. -/
theorem events_cases (engine : Engine β) (move : Move) :
    engine.events move = [] ∨
      ∃ event, engine.events move = [event] ∧ event.id ∈ engine.roster.live := by
  cases move with
  | begin => exact .inl rfl
  | log id row => exact .inl rfl
  | access object id action =>
      cases found : engine.roster.find? id with
      | none => simp [events, access, found, Verdict.isAllowed]
      | some entry =>
          simp only [events]
          split
          · exact .inr ⟨_, rfl, Roster.mem_live_of_find? found⟩
          · exact .inl rfl
  | finish id commit =>
      cases found : engine.roster.find? id with
      | none => simp [events, finish_absent found]
      | some entry =>
          have live := Roster.mem_live_of_find? found
          rw [events_finish found]
          split <;> exact .inr ⟨_, rfl, live⟩
  | evict id =>
      cases found : engine.roster.find? id with
      | none => simp [events, found]
      | some entry => exact .inr ⟨.dropped id, by simp [events, found], Roster.mem_live_of_find? found⟩

theorem access_of_granted {move : Move} {access : Access}
    (granted : .granted access ∈ engine.events move) :
    move = .access access.object access.id access.action ∧
      (engine.access access.object access.id access.action).1.isAllowed = true := by
  cases move with
  | access object id action =>
      simp only [events] at granted
      split at granted
      · rename_i allowed
        cases List.mem_singleton.mp granted
        exact ⟨rfl, allowed⟩
      · contradiction
  | finish id commit =>
      simp only [events] at granted
      split at granted <;> simp at granted
  | evict id =>
      simp only [events] at granted
      split at granted <;> simp at granted
  | begin => contradiction
  | log id row => contradiction

theorem accesses_events {move : Move}
    (silent : ∀ object id action, move ≠ .access object id action) :
    accesses (engine.events move) = [] := by
  apply List.eq_nil_iff_forall_not_mem.mpr
  intro access member
  exact silent _ _ _ (access_of_granted (mem_accesses.mp member)).1

theorem finish_of_committed {move : Move} {id : TxnId}
    (committed : engine.events move = [.committed id]) : ∃ commit, move = .finish id commit := by
  cases move with
  | finish target commit =>
      simp only [events] at committed
      split at committed
      · cases committed
        exact ⟨commit, rfl⟩
      · contradiction
      · simp at committed
      · simp at committed
  | access object target action =>
      simp only [events] at committed
      split at committed <;> simp at committed
  | evict target =>
      simp only [events] at committed
      split at committed <;> simp at committed
  | begin => contradiction
  | log target row => contradiction

/-- The event at a position of a reached history is the event of a move from a state reached before
it. -/
theorem Reaches.split {past rest : List Event} {event : Event}
    (reached : Reaches start (past ++ event :: rest) engine) :
    ∃ earlier move, Reaches start past earlier ∧ earlier.events move = [event] := by
  generalize whole : past ++ event :: rest = history at reached
  induction reached generalizing rest with
  | start => simp at whole
  | @move before earlier reached move ih =>
      rcases earlier.events_cases move with none | ⟨last, one, _⟩
      · rw [none, List.append_nil] at whole
        exact ih whole
      · rw [one] at whole
        rcases List.eq_nil_or_concat rest with rfl | ⟨rest, final, rfl⟩
        · obtain ⟨rfl, same⟩ := List.append_inj' whole rfl
          cases same
          exact ⟨earlier, move, reached, one⟩
        · rw [List.concat_eq_append, ← List.cons_append, ← List.append_assoc] at whole
          exact ih (List.append_inj' whole rfl).1

/-- A transaction is live after a move if and only if it was live and the move does not end it, or
the move has begun it. -/
theorem mem_live_after (engine : Engine β) (move : Move) (id : TxnId) :
    id ∈ (engine.after move).roster.live ↔
      (id ∈ engine.roster.live ∧ ∀ event ∈ engine.events move, event.ends id = false) ∨
        (id = engine.last + 1 ∧ (engine.after move).last = engine.last + 1) := by
  have later : engine.last ≠ engine.last + 1 := by lia
  cases move with
  | begin =>
      simp only [after, begin, Roster.add, Std.ExtTreeMap.mem_insert,
        Std.LawfulEqCmp.compare_eq_iff_eq, events, List.not_mem_nil, false_implies,
        implies_true, and_true]
      exact ⟨fun live => live.elim (fun new => .inr new.symm) .inl,
        fun live => live.elim .inr (fun new => .inl new.symm)⟩
  | access object target action =>
      obtain ⟨live, last⟩ := engine.access_live object target action
      simp only [after, live, last, later, and_false, or_false]
      constructor
      · intro present
        refine ⟨present, fun event member => ?_⟩
        simp only [events] at member
        split at member
        · rw [List.mem_singleton.mp member]
          rfl
        · contradiction
      · exact And.left
  | log target row =>
      obtain ⟨_, live, last⟩ := engine.log_frame target row
      simp [after, live, last, events]
  | finish target commit =>
      cases found : engine.roster.find? target with
      | none => simp [after, events, finish_absent found]
      | some entry =>
          obtain ⟨roster, last⟩ := finish_roster found commit
          have ended : ∀ event ∈ engine.events (.finish target commit),
              event.ends id = decide (target = id) := by
            rw [events_finish found]
            intro event member
            split at member <;> rw [List.mem_singleton.mp member] <;> rfl
          have some : engine.events (.finish target commit) ≠ [] := by
            rw [events_finish found]
            split <;> exact List.cons_ne_nil _ _
          obtain ⟨event, rest, cons⟩ := List.exists_cons_of_ne_nil some
          simp only [after, roster, last, later, and_false, or_false, Roster.remove, Roster.put,
            Std.ExtTreeMap.mem_erase, Std.compare_ne_eq_iff_ne]
          constructor
          · intro given
            obtain ⟨different, present⟩ := given
            refine ⟨present, fun event member => ?_⟩
            rw [ended event member]
            exact decide_eq_false different
          · intro given
            obtain ⟨present, unended⟩ := given
            have first : event ∈ engine.events (.finish target commit) := by simp [cons]
            have here := (ended event first).symm.trans (unended event first)
            exact ⟨of_decide_eq_false here, present⟩
  | evict target =>
      cases found : engine.roster.find? target with
      | none => simp [after, events, evict_absent found, found]
      | some entry =>
          simp only [after, evict_found found, events, found, later, Roster.remove, Roster.put,
            Std.ExtTreeMap.mem_erase, Std.compare_ne_eq_iff_ne, Option.isSome_some, if_true,
            List.mem_singleton, forall_eq, Event.ends, decide_eq_false_iff_not, and_false,
            or_false]
          exact and_comm

theorem last_after (engine : Engine β) {move : Move} (other : move ≠ .begin) :
    (engine.after move).last = engine.last := by
  cases move with
  | begin => exact absurd rfl other
  | access object id action => exact (engine.access_live object id action).2
  | log id row => exact (engine.log_frame id row).2.2
  | finish id commit =>
      cases found : engine.roster.find? id with
      | none => simp [after, finish_absent found]
      | some entry => exact (finish_roster found commit).2
  | evict id =>
      simp only [after, evict]
      split <;> rfl

theorem last_le_after (engine : Engine β) (move : Move) : engine.last ≤ (engine.after move).last := by
  by_cases begins : move = .begin
  · subst begins
    exact Nat.le_succ _
  · exact Nat.le_of_eq (engine.last_after begins).symm

/-- The invariant relating a history to the roster: a transaction with events is live or has ended,
and has no event after its end. -/
structure Chronicle (engine : Engine β) (history : List Event) : Prop where
  orderly : engine.Orderly
  bounded : ∀ event ∈ history, 0 < event.id ∧ event.id ≤ engine.last
  closed : ∀ event ∈ history, ∀ id, event.ends id = true → id ∉ engine.roster.live
  resolved : ∀ event ∈ history,
    event.id ∈ engine.roster.live ∨ ∃ final ∈ history, final.ends event.id = true
  settled : Settled history

namespace Chronicle

theorem empty (orderly : engine.Orderly) : engine.Chronicle [] where
  orderly := orderly
  bounded _ member := by contradiction
  closed _ member := by contradiction
  resolved _ member := by contradiction
  settled := .nil

theorem move [Discipline.PreservesIdentities β] {past : List Event} (chronicle : engine.Chronicle past)
    (move : Move) : (engine.after move).Chronicle (past ++ engine.events move) := by
  have live (event : Event) (member : event ∈ engine.events move) :
      event.id ∈ engine.roster.live := by
    rcases engine.events_cases move with none | ⟨only, one, live⟩
    · simp [none] at member
    · rw [one, List.mem_singleton] at member
      rwa [member]
  constructor
  case orderly => exact chronicle.orderly.after move
  case bounded =>
      intro event member
      have bounds : 0 < event.id ∧ event.id ≤ engine.last := by
        rcases List.mem_append.mp member with old | new
        · exact chronicle.bounded event old
        · exact chronicle.orderly.bounds_of_live (live event new)
      exact ⟨bounds.1, Nat.le_trans bounds.2 (engine.last_le_after move)⟩
  case closed =>
      intro event member id ended present
      have same := event.id_of_ends ended
      rcases (engine.mem_live_after move id).mp present with ⟨before, unended⟩ | ⟨begun, _⟩
      · rcases List.mem_append.mp member with old | new
        · exact chronicle.closed event old id ended before
        · rw [unended event new] at ended
          contradiction
      · rcases List.mem_append.mp member with old | new
        · have bound := (chronicle.bounded event old).2
          lia
        · have bound := (chronicle.orderly.bounds_of_live (live event new)).2
          lia
  case resolved =>
      intro event member
      by_cases ended : ∃ final ∈ past ++ engine.events move, final.ends event.id = true
      · exact .inr ended
      · left
        apply (engine.mem_live_after move event.id).mpr
        refine .inl ⟨?_, fun final new => ?_⟩
        · rcases List.mem_append.mp member with old | new
          · rcases chronicle.resolved event old with present | ⟨final, finalOld, finalEnds⟩
            · exact present
            · exact absurd ⟨final, List.mem_append_left _ finalOld, finalEnds⟩ ended
          · exact live event new
        · exact Bool.eq_false_iff.mpr fun ends =>
            ended ⟨final, List.mem_append_right _ new, ends⟩
  case settled =>
      refine List.pairwise_append.mpr ⟨chronicle.settled, ?_, ?_⟩
      · rcases engine.events_cases move with none | ⟨only, one, _⟩
        · simp [none]
        · simp [one]
      · intro earlier old later new id ended same
        exact chronicle.closed earlier old id ended (same ▸ live later new)

end Chronicle

theorem Reaches.chronicle [Discipline.PreservesIdentities β] (orderly : start.Orderly)
    {past : List Event}
    (reached : Reaches start past engine) : engine.Chronicle past := by
  induction reached with
  | start => exact .empty orderly
  | move _ move ih => exact ih.move move

end Engine

/-- The transaction that a call commits, read off its answer. -/
def Call.committed? : Call × Answer → Option TxnId
  | (.finish id _, .ended (.ok true)) => some id
  | _ => none

namespace Engine

variable {β : Type} [Discipline β]

/-- All moves of a batch are accesses. -/
theorem access_of_mem_asked {engine : Engine β} {id : TxnId} {action : Action}
    {objects : List ObjectId} {move : Move} (member : move ∈ engine.asked id action objects) :
    ∃ object, move = .access object id action := by
  induction objects generalizing engine with
  | nil => contradiction
  | cons object rest ih =>
      simp only [asked, List.mem_cons] at member
      generalize engine.access object id action = judged at member
      rcases member with first | later
      · exact ⟨object, first⟩
      · split at later
        · exact ih later
        · contradiction

theorem finish_not_mem_moves (engine : Engine β) {call : Call}
    (other : ∀ id commit, call ≠ .finish id commit) (id : TxnId) (commit : Bool) :
    .finish id commit ∉ engine.moves call := by
  cases call with
  | finish target commits => exact absurd rfl (other target commits)
  | accessAll objects target action =>
      intro member
      obtain ⟨object, access⟩ := access_of_mem_asked member
      contradiction
  | _ => simp [moves]

theorem committed_eventsOf (engine : Engine β) {moves : List Move}
    (unfinished : ∀ id commit, .finish id commit ∉ moves) :
    (engine.eventsOf moves).filterMap Event.committed? = [] := by
  induction moves generalizing engine with
  | nil => rfl
  | cons move rest ih =>
      have later := ih (engine.after move) fun id commit member =>
        unfinished id commit (List.mem_cons_of_mem _ member)
      rw [eventsOf, List.filterMap_append, later, List.append_nil]
      rcases engine.events_cases move with none | ⟨event, one, _⟩
      · rw [none]
        rfl
      · rw [one, List.filterMap_cons_none]
        · rfl
        · cases event with
          | granted access | dropped id => rfl
          | committed id =>
              obtain ⟨commit, rfl⟩ := finish_of_committed one
              exact absurd List.mem_cons_self (unfinished id commit)

theorem committed_moves (engine : Engine β) (call : Call) :
    (engine.eventsOf (engine.moves call)).filterMap Event.committed? =
      (Call.committed? (call, (engine.step call).1)).toList := by
  have silent (other : ∀ id commit, call ≠ .finish id commit) :
      (engine.eventsOf (engine.moves call)).filterMap Event.committed? = [] :=
    engine.committed_eventsOf (engine.finish_not_mem_moves other)
  cases call with
  | finish id commit =>
      simp only [moves, eventsOf, events, List.append_nil, step, answered]
      split <;> rename_i outcome <;> simp only [outcome, Call.committed?] <;> rfl
  | _ => exact silent (by simp)

/-- The commits in the history are the calls of `finish` that are answered with a commit. -/
theorem committed_history (engine : Engine β) (calls : List Call) :
    (engine.history calls).filterMap Event.committed? =
      (calls.zip (engine.run calls).1).filterMap Call.committed? := by
  induction calls generalizing engine with
  | nil => rfl
  | cons call rest ih =>
      rw [history, List.filterMap_append, committed_moves, ih]
      cases told : Call.committed? (call, (engine.step call).1) with
      | none => exact (List.filterMap_cons_none told).symm
      | some id => exact (List.filterMap_cons_some told).symm

end Engine

end Isolation
