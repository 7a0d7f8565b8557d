import Isolation.Proofs.Deferred
import Isolation.Proofs.Validation

/-!
Optimistic concurrency control. No live transaction is committed, so the ledger agrees with the
history of every run. Hence every committed transaction was unopposed at its commit, and the history
is serializable in commit order.
-/

namespace Isolation

namespace Ledger

variable {engine start : Engine Ledger} {past : List Event}

theorem accept_eq (books : Ledger) (id : TxnId) :
    Discipline.accept books id = ((books.validate id).1.isValid, (books.validate id).2) := rfl

theorem leave_eq (books : Ledger) (id : TxnId) : Discipline.leave books id = books.discard id := rfl

theorem judge_eq (scene : Scene Ledger) (handle : Handle) (txn : Transaction)
    (object : ObjectId) (action : Action) :
    Discipline.judge scene handle txn object action = judge scene handle txn object action := rfl

theorem access_cases (orderly : engine.Orderly) (object : ObjectId) (id : TxnId)
    (action : Action) :
    ((engine.access object id action).1.isAllowed = false ∧
      (engine.access object id action).2.books = engine.books) ∨
    (id ∈ engine.roster.live ∧ (engine.access object id action).1.isAllowed = true ∧
      (engine.access object id action).2.books = engine.books.access id object action) := by
  cases found : engine.roster.find? id with
  | none =>
      obtain ⟨verdict, books⟩ := Engine.access_absent found object action
      rw [verdict, books]
      exact .inl ⟨rfl, rfl⟩
  | some entry =>
      obtain ⟨handle, txn⟩ := entry
      obtain ⟨verdict, books⟩ := Engine.access_found found object action
      rw [verdict, books, judge_eq]
      unfold judge
      split
      · exact .inl ⟨rfl, rfl⟩
      · have same : txn.id = id := orderly.id_of_find? found
        rw [same]
        exact .inr ⟨Roster.mem_live_of_find? found, rfl, rfl⟩

/-- The books after `finish`: a validated transaction is committed and its record is kept, and any
other transaction is dropped with its record. -/
theorem finish_cases (orderly : engine.Orderly) {id : TxnId} {handle : Handle} {txn : Transaction}
    (found : engine.roster.find? id = some (handle, txn)) (commit : Bool) :
    (engine.events (.finish id commit) = [.committed id] ∧
      (engine.books.validate id).1.isValid = true ∧
      (engine.finish id commit).2.books = (engine.books.validate id).2.discard id) ∨
    (engine.events (.finish id commit) = [.dropped id] ∧
      ((engine.finish id commit).2.books = engine.books.discard id ∨
        ((engine.books.validate id).1.isValid = false ∧
          (engine.finish id commit).2.books = (engine.books.validate id).2.discard id))) := by
  rw [Engine.events_finish found, Engine.finish_books found, leave_eq]
  have same : txn.id = id := orderly.id_of_find? found
  rcases Engine.conclude_cases engine.books txn commit with ⟨outcome, accepted⟩ | ⟨failed, books⟩
  · rw [same, accept_eq, Prod.mk.injEq] at accepted
    rw [outcome, ← accepted.2]
    exact .inl ⟨rfl, accepted.1, rfl⟩
  · right
    constructor
    · split
      · rename_i outcome
        exact absurd outcome failed
      · rfl
    · rcases books with unasked | refused
      · rw [unasked]
        exact .inl rfl
      · rw [same, accept_eq, Prod.mk.injEq] at refused
        rw [← refused.2]
        exact .inr ⟨refused.1, rfl⟩

theorem Agrees.not_mem_of_live {id : TxnId} (agrees : engine.books.Agrees past)
    (chronicle : engine.Chronicle past) (live : id ∈ engine.roster.live) :
    id ∉ engine.books.committed := by
  rw [agrees.committed]
  intro committed
  exact chronicle.closed _ (mem_filterMap_committed?.mp committed) id (by simp [Event.ends]) live

theorem Agrees.move (agrees : engine.books.Agrees past) (chronicle : engine.Chronicle past)
    (move : Move) : (engine.after move).books.Agrees (past ++ engine.events move) := by
  have silent {next : Engine Ledger} {events : List Event} (books : next.books = engine.books)
      (none : events = []) : next.books.Agrees (past ++ events) := by
    rw [books, none, List.append_nil]
    exact agrees
  cases move with
  | begin => exact silent rfl rfl
  | log id row => exact silent (engine.log_frame id row).1 rfl
  | access object id action =>
      rw [Engine.after, Engine.events]
      rcases access_cases chronicle.orderly object id action with
        ⟨refused, books⟩ | ⟨live, allowed, books⟩
      · exact silent books (if_neg (Bool.eq_false_iff.mp refused))
      · rw [if_pos allowed, books]
        exact agrees.access (agrees.not_mem_of_live chronicle live) object action
  | finish id commit =>
      cases found : engine.roster.find? id with
      | none =>
          rw [Engine.after, Engine.events, Engine.finish_absent found]
          exact silent rfl rfl
      | some entry =>
          have uncommitted := agrees.not_mem_of_live chronicle (Roster.mem_live_of_find? found)
          rw [Engine.after]
          rcases finish_cases chronicle.orderly found commit with
            ⟨events, valid, books⟩ | ⟨events, books | ⟨invalid, books⟩⟩
          · have kept : id ∈ (engine.books.validate id).2.committed := by
              simp [agrees.committed_of_valid uncommitted valid]
            rw [events, books, Ledger.discard, if_pos kept]
            exact agrees.commit uncommitted valid
          · rw [events, books]
            exact agrees.discard uncommitted
          · obtain ⟨_, others, committed, clock⟩ := agrees.refuse uncommitted invalid
            rw [events, books, discard_of_not_mem (committed ▸ uncommitted)]
            exact agrees.drop uncommitted Std.ExtTreeMap.getElem?_erase_self
              (fun different => (record?_erase _ different).trans (others _ different))
              committed clock
  | evict id =>
      cases found : engine.roster.find? id with
      | none =>
          rw [Engine.after, Engine.events, Engine.evict_absent found, found]
          exact silent rfl rfl
      | some entry =>
          have uncommitted := agrees.not_mem_of_live chronicle (Roster.mem_live_of_find? found)
          rw [Engine.after, Engine.evict_found found, Engine.events, found]
          exact agrees.discard uncommitted

theorem agrees_of_reaches (reached : (Engine.fresh : Engine Ledger).Reaches past engine) :
    engine.books.Agrees past := by
  induction reached with
  | start => exact .empty
  | move reached move ih => exact ih.move (reached.chronicle Engine.fresh_orderly) move

theorem unopposed_of_committed {id : TxnId} {rest : List Event}
    (reached : (Engine.fresh : Engine Ledger).Reaches (past ++ .committed id :: rest) engine) :
    Unopposed id past := by
  obtain ⟨before, move, reachedBefore, committed⟩ := reached.split
  have agrees := agrees_of_reaches reachedBefore
  have chronicle := reachedBefore.chronicle Engine.fresh_orderly
  obtain ⟨commit, rfl⟩ := Engine.finish_of_committed committed
  cases found : before.roster.find? id with
  | none => simp [Engine.events, Engine.finish_absent found] at committed
  | some entry =>
      have uncommitted := agrees.not_mem_of_live chronicle (Roster.mem_live_of_find? found)
      rcases finish_cases chronicle.orderly found commit with ⟨_, valid, _⟩ | ⟨dropped, _⟩
      · exact (agrees.isValid_iff uncommitted).mp valid
      · simp [dropped] at committed

example : (Engine.fresh : Engine Ledger).history [.begin, .begin, .access "x" 1 .write,
    .access "x" 2 .read, .finish 1 true, .finish 2 true] =
      [.granted ⟨1, "x", .write⟩, .granted ⟨2, "x", .read⟩, .committed 1, .dropped 2] := by
  decide

end Ledger

/-- Serializability of optimistic concurrency control, for every run. The ledger lists the committed
transactions without repetition. The serial replay in the order of the ledger yields the readings of
every committed transaction and the final writer of every object. -/
theorem optimistic_serializable (calls : List Call) :
    let start : Engine Ledger := Engine.fresh
    let history := start.history calls
    let committed := (start.run calls).2.books.committed
    let ordered := serial Event.id committed history
    committed = history.filterMap Event.committed? ∧ committed.Nodup ∧
    (∀ id ∈ committed, (replay Versions.step {} ordered).1.filter (·.reader = id) =
      (replay Versions.step {} history).1.filter (·.reader = id)) ∧
    (replay Versions.step {} ordered).2.installed =
      (replay Versions.step {} history).2.installed := by
  intro start history committed ordered
  have reached : start.Reaches history (start.run calls).2 := Engine.reaches_run start calls
  have settled : Settled history := (reached.chronicle Engine.fresh_orderly).settled
  have listed : committed = history.filterMap Event.committed? :=
    (Ledger.agrees_of_reaches reached).committed
  have sorted : ordered = Versions.serialized history := by
    rw [Versions.serialized, ← listed]
  obtain ⟨seen, left⟩ := Versions.serializable settled fun past id rest whole =>
    Ledger.unopposed_of_committed (whole ▸ reached)
  rw [sorted]
  refine ⟨listed, ?_, fun id member => seen id ?_, left⟩
  · rw [listed]
    exact settled.nodup_committed
  · rw [listed] at member
    exact mem_filterMap_committed?.mp member

end Isolation
