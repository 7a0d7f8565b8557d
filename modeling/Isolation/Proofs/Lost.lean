import Isolation.Proofs.Admission
import Isolation.Proofs.Permanence

/-!
Failed and aborted transactions never commit. Their requests are refused, their end is a rollback,
and no sequence of deeds makes them visit `committed`; by `mem_committed_after` they never enter the
committed list of a ledger.
-/

namespace Isolation

open Status (Way)

theorem Status.Way.target_mem {source target : Status} {path : List Status}
    (way : Way source path target) : target ∈ source :: path := by
  induction path generalizing source with
  | nil =>
      cases way
      exact List.mem_cons_self
  | cons next rest ih => exact List.mem_cons_of_mem _ (ih way.2)

theorem Transactions.Traced.apart {made : Transactions} {handle : Handle} {path : List Status}
    {one : Status} (traced : made.Traced handle path) (member : one ∈ path)
    (aborted : one.isAborted = true) : .committed ∉ path := by
  cases present : made[handle]? with
  | none =>
      have unmoved : path = [] := by simpa only [Traced, present] using traced
      rw [unmoved] at member
      contradiction
  | some txn =>
      have apart := (traced.way present).apart (List.mem_cons_of_mem _ member) aborted
      exact fun committed => apart (List.mem_cons_of_mem _ committed)

namespace Engine

variable {β : Type} [Discipline β] {engine : Engine β} {id : TxnId} {handle : Handle}

/-- Ending a failed or aborted transaction is a rollback also if a commit is requested. -/
theorem finish_of_aborted {txn : Transaction} (found : engine.roster.find? id = some (handle, txn))
    (aborted : txn.isAborted = true) (commit : Bool) :
    engine.finish id commit = (.ok false, { engine with
      roster := (engine.roster.put handle { txn with status := .terminated }).remove id
      counters := engine.counters.countEnd false
      books := Discipline.leave engine.books id }) := by
  obtain ⟨outcome, left, books⟩ := conclude_of_aborted engine.books aborted commit
  simp only [finish, found, outcome, left, books]

theorem finish_of_event {move : Move} (committed : .committed id ∈ engine.events move) :
    ∃ commit, move = .finish id commit ∧ (engine.finish id commit).1 = .ok true := by
  obtain ⟨event, one, _⟩ := (engine.events_cases move).resolve_left (List.ne_nil_of_mem committed)
  have alone : engine.events move = [.committed id] := by
    rw [one, List.mem_singleton] at committed
    rw [one, committed]
  obtain ⟨commit, rfl⟩ := finish_of_committed alone
  refine ⟨commit, rfl, ?_⟩
  simp only [events] at alone
  split at alone
  · assumption
  · contradiction
  · simp at alone
  · simp at alone

theorem committed_mem_way_of_event (orderly : engine.Orderly) {move : Move}
    (committed : .committed (handle + 1) ∈ engine.events move) :
    .committed ∈ engine.way handle move := by
  obtain ⟨commit, rfl, ended⟩ := finish_of_event committed
  cases found : engine.roster.find? (handle + 1) with
  | none =>
      rw [finish_absent found] at ended
      contradiction
  | some entry =>
      obtain ⟨seat, txn⟩ := entry
      have here : seat = handle :=
        Nat.succ.inj (orderly.seated (Roster.find?_eq_some.mp found).1).1
      subst here
      exact (committed_mem_way found commit).mpr ended

/-- The path of a transaction visits `committed` if the events of the moves contain its commit. -/
theorem committed_mem_wayOf [Discipline.PreservesIdentities β] (orderly : engine.Orderly)
    {moves : List Move}
    (committed : .committed (handle + 1) ∈ engine.eventsOf moves) :
    .committed ∈ engine.wayOf handle moves := by
  induction moves generalizing engine with
  | nil => contradiction
  | cons move rest ih =>
      rw [eventsOf, List.mem_append] at committed
      rw [wayOf, List.mem_append]
      exact committed.imp (committed_mem_way_of_event orderly) (ih (orderly.after move))

end Engine

namespace Ledger

variable {engine : Engine Ledger}

theorem discard_committed (ledger : Ledger) (id : TxnId) :
    (ledger.discard id).committed = ledger.committed := by
  unfold discard
  split <;> rfl

theorem validate_committed (ledger : Ledger) (id : TxnId) :
    (ledger.validate id).2.committed =
      if (ledger.validate id).1.isValid then ledger.committed ++ [id] else ledger.committed := by
  have listed := (ledger.operate_frame (.validate id)).2
  simp only [operate, events] at listed
  rw [listed]
  split
  · rfl
  · exact List.append_nil _

/-- A move appends to the committed list the transactions that its events commit. -/
theorem committed_after (orderly : engine.Orderly) (move : Move) :
    (engine.after move).books.committed =
      engine.books.committed ++ (engine.events move).filterMap Event.committed? := by
  have silent {next : Engine Ledger} {events : List Event}
      (listed : next.books.committed = engine.books.committed)
      (none : events.filterMap Event.committed? = []) :
      next.books.committed = engine.books.committed ++ events.filterMap Event.committed? := by
    rw [listed, none, List.append_nil]
  cases move with
  | begin => exact silent rfl rfl
  | log id row => exact silent (congrArg committed (engine.log_frame id row).1) rfl
  | access object id action =>
      rcases access_cases orderly object id action with ⟨refused, books⟩ | ⟨_, allowed, books⟩
      · refine silent (congrArg committed books) ?_
        rw [Engine.events, refused]
        rfl
      · refine silent ?_ ?_
        · rw [Engine.after, books]
          exact (engine.books.touch_frame id).1
        · rw [Engine.events, allowed]
          rfl
  | finish id commit =>
      cases found : engine.roster.find? id with
      | none =>
          rw [Engine.after, Engine.events, Engine.finish_absent found]
          exact silent rfl rfl
      | some entry =>
          rcases finish_cases orderly found commit with
            ⟨events, valid, books⟩ | ⟨events, books | ⟨invalid, books⟩⟩
          · rw [Engine.after, events, books, discard_committed, validate_committed, if_pos valid]
            rfl
          · rw [events]
            exact silent ((congrArg committed books).trans (discard_committed _ id)) rfl
          · rw [events]
            refine silent ?_ rfl
            rw [Engine.after, books, discard_committed, validate_committed, invalid,
              if_neg Bool.false_ne_true]
  | evict id =>
      cases found : engine.roster.find? id with
      | none =>
          rw [Engine.after, Engine.events, Engine.evict_absent found, found]
          exact silent rfl rfl
      | some entry =>
          rw [Engine.after, Engine.evict_found found, Engine.events, found]
          exact silent (discard_committed _ id) rfl

theorem committed_moves (orderly : engine.Orderly) (moves : List Move) :
    (moves.foldl Engine.after engine).books.committed =
      engine.books.committed ++ (engine.eventsOf moves).filterMap Event.committed? := by
  induction moves generalizing engine with
  | nil => exact (List.append_nil _).symm
  | cons move rest ih =>
      rw [List.foldl_cons, ih (orderly.after move), committed_after orderly, Engine.eventsOf,
        List.filterMap_append, List.append_assoc]

end Ledger

namespace Running

variable {running : Running} {handle : Handle}

/-- The committed list of a validation engine. Empty under the other disciplines. -/
def committed : Running → List TxnId
  | validation engine => engine.books.committed
  | lock _ | timestamp _ => []

theorem touch_committed (running : Running) (place : Handle) (touch : Transaction.Touch) :
    (running.touch place touch).2.committed = running.committed := by
  cases running with
  | validation engine => exact congrArg Ledger.committed (engine.touch_frame place touch).2.2
  | lock engine | timestamp engine => rfl

/-- A deed adds a transaction to the committed list only by moving it through `committed`. -/
theorem mem_committed_after (orderly : running.Holds fun engine => engine.Orderly) (deed : Deed)
    (listed : handle + 1 ∈ (running.after deed).committed) :
    handle + 1 ∈ running.committed ∨ .committed ∈ running.way handle deed := by
  cases running with
  | lock engine | timestamp engine => cases deed <;> contradiction
  | validation engine =>
      cases deed with
      | call call =>
          simp only [after, change, Engine.step_eq_moves, committed,
            Ledger.committed_moves orderly, List.mem_append] at listed
          exact listed.imp_right fun now =>
            Engine.committed_mem_wayOf orderly (mem_filterMap_committed?.mp now)
      | moveTo place target => exact .inl (touch_committed _ place (.moveTo target) ▸ listed)
      | forceAbort place => exact .inl (touch_committed _ place .forceAbort ▸ listed)
      | acquire place object mode => exact .inl listed

theorem mem_committed_deeds (orderly : running.Holds fun engine => engine.Orderly)
    (deeds : List Deed) (listed : handle + 1 ∈ (deeds.foldl after running).committed) :
    handle + 1 ∈ running.committed ∨ .committed ∈ running.visited handle deeds := by
  induction deeds generalizing running with
  | nil => exact .inl listed
  | cons deed rest ih =>
      rw [visited, List.mem_append, ← or_assoc]
      exact (ih (orderly_after orderly deed) listed).imp_left (mem_committed_after orderly deed)

theorem fresh_committed (recovery : Option RecoveryLog) (algorithm : Algorithm) :
    (fresh recovery algorithm).committed = [] := by
  cases algorithm <;> rfl

theorem id_of_handle? {id : TxnId} (orderly : running.Holds fun engine => engine.Orderly)
    (seat : running.handle? id = some handle) : handle + 1 = id := by
  cases running <;> exact (Engine.Orderly.seated orderly seat).1

theorem id_of_made {txn : Transaction} (orderly : running.Holds fun engine => engine.Orderly)
    (present : running.made[handle]? = some txn) : txn.id = handle + 1 := by
  cases running <;> exact congrArg Prod.fst (Engine.Orderly.identity_of_made orderly present)

theorem seat_of_finished {id : TxnId} {commit committed : Bool}
    (ended : (running.ask fun engine => (engine.finish id commit).1) = .ok committed) :
    ∃ handle txn, running.handle? id = some handle ∧ running.made[handle]? = some txn := by
  cases running <;>
  · rename_i engine
    cases found : engine.roster.find? id with
    | none =>
        rw [ask, Engine.finish_absent found] at ended
        contradiction
    | some entry => exact ⟨entry.1, entry.2, Roster.find?_eq_some.mp found⟩

/-- The engine refuses every request of the transaction, counting one refusal, and answers its end
with a rollback. -/
structure Refuses (running : Running) (handle : Handle) (txn : Transaction) : Prop where
  access : ∀ object action, (running.act fun engine => engine.access object txn.id action) =
    (.refused .aborted, running.refuse)
  accessAll : ∀ object rest action,
    (running.act fun engine => engine.accessAll (object :: rest) txn.id action) =
      (.refused .aborted, running.refuse)
  finish : ∀ commit, (running.ask fun engine => (engine.finish txn.id commit).1) = .ok false
  ended : ∀ commit, (running.after (.call (.finish txn.id commit))).made[handle]? =
    some { txn with status := .terminated }
  gone : ∀ commit, (running.after (.call (.finish txn.id commit))).handle? txn.id = none

theorem refuses_of_aborted {txn : Transaction} (seat : running.handle? txn.id = some handle)
    (present : running.made[handle]? = some txn) (aborted : txn.isAborted = true) :
    running.Refuses handle txn := by
  have inBounds := (Array.getElem?_eq_some_iff.mp present).1
  cases running <;>
  · rename_i engine
    have found := Roster.find?_eq_some.mpr ⟨seat, present⟩
    have refused := Engine.access_of_aborted found aborted
    have ends := Engine.finish_of_aborted found aborted
    constructor
    case access =>
        intro object action
        rw [act, refused]
        rfl
    case accessAll =>
        intro object rest action
        rw [act, Engine.accessAll_of_refused (refused object action)]
        rfl
    case finish => exact fun commit => congrArg Prod.fst (ends commit)
    case ended =>
        intro commit
        simp only [made, ask, after, change, Engine.step, answered, ends, Roster.remove, Roster.put]
        exact Array.getElem?_setIfInBounds_self_of_lt inBounds
    case gone =>
        intro commit
        simp only [handle?, ask, after, change, Engine.step, answered, ends, Roster.remove,
          Roster.handle?]
        exact Std.ExtTreeMap.getElem?_erase_self

theorem visited_apart (recovery : Option RecoveryLog) (algorithm : Algorithm) {first : List Deed}
    {one : Status} (member : one ∈ (fresh recovery algorithm).visited handle first)
    (aborted : one.isAborted = true) (rest : List Deed) :
    .committed ∉ (fresh recovery algorithm).visited handle (first ++ rest) := by
  have traced := traced_visited (fresh_traced recovery algorithm handle) (first ++ rest)
  refine traced.apart ?_ aborted
  rw [List.nil_append, visited_append]
  exact List.mem_append_left _ member

end Running

/-- Permanence of aborts, for any engine and any sequence of deeds. A transaction that has visited
`failed` or `aborted` never visits `committed`, is never in the committed list, and its end is never
answered with a commit. While it is live with such a status, `Refuses` holds: each request is
refused with an unchanged engine up to the count of refusals, and each end is answered with a
rollback, terminates it and removes it from the roster. -/
theorem lost_for_good (algorithm : Algorithm) (recovery : Option RecoveryLog)
    (first rest : List Deed) :
    let start := Running.fresh recovery algorithm
    let running := (first ++ rest).foldl Running.after start
    ∀ handle txn, running.made[handle]? = some txn →
      ((∃ status ∈ start.visited handle first, status.isAborted = true) →
        .committed ∉ start.visited handle (first ++ rest) ∧ txn.status ≠ .committed ∧
        txn.id ∉ running.committed ∧
        ∀ commit, (running.ask fun engine => (engine.finish txn.id commit).1) ≠ .ok true) ∧
      (txn.isAborted = true → txn.status ∈ start.visited handle (first ++ rest) ∧
        (running.handle? txn.id = some handle → running.Refuses handle txn)) := by
  intro start running handle txn present
  have orderly : running.Holds fun engine => engine.Orderly :=
    Running.orderly_deeds (Running.fresh_orderly recovery algorithm) (first ++ rest)
  have way : Way .active (start.visited handle (first ++ rest)) txn.status :=
    (Running.traced_visited (Running.fresh_traced recovery algorithm handle) (first ++ rest)).way
      present
  have name : txn.id = handle + 1 := Running.id_of_made orderly present
  constructor
  · intro lost
    obtain ⟨one, member, aborted⟩ := lost
    have apart := Running.visited_apart recovery algorithm member aborted
    refine ⟨apart rest, fun committed => ?_, fun listed => ?_, fun commit ended => ?_⟩
    · rcases List.mem_cons.mp way.target_mem with active | visited
      · rw [committed] at active
        contradiction
      · exact apart rest (committed ▸ visited)
    · rw [name] at listed
      rcases Running.mem_committed_deeds (Running.fresh_orderly recovery algorithm) _ listed with
        before | visited
      · rw [Running.fresh_committed] at before
        contradiction
      · exact apart rest visited
    · -- An end that commits would be one more deed, and its way would come by the commit.
      obtain ⟨place, ending, seat, standing⟩ := Running.seat_of_finished ended
      have here : place = handle :=
        Nat.succ.inj ((Running.id_of_handle? orderly seat).trans name)
      subst here
      have commits := (Running.committed_mem_way_finish seat standing commit).mpr ended
      refine apart (rest ++ [.call (.finish txn.id commit)]) ?_
      rw [← List.append_assoc, Running.visited_append, List.mem_append]
      exact .inr (List.mem_append_left _ commits)
  · intro aborted
    refine ⟨?_, fun seat => Running.refuses_of_aborted seat present aborted⟩
    refine (List.mem_cons.mp way.target_mem).resolve_left fun active => ?_
    rw [Transaction.isAborted, active] at aborted
    contradiction

end Isolation
