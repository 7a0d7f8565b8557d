import Isolation.Call
import Isolation.Proofs.Conclusion

/-!
The common structure of all engines. A call is a sequence of moves, each of which concerns one
transaction: a batch is a sequence of accesses and a shutdown a sequence of evictions. An invariant
of all moves is an invariant of all runs.
-/

namespace Isolation

/-- Judging preserves the identities, that is the names and timestamps, of all transactions. -/
class Discipline.PreservesIdentities (β : Type) [Discipline β] : Prop where
  judge_identities : ∀ (scene : Scene β) (handle : Handle) (txn : Transaction) (object : ObjectId)
    (action : Action),
    Transactions.identities (Discipline.judge scene handle txn object action).2.made =
      Transactions.identities scene.made

theorem LockTable.acquire_identities (table : LockTable) (made : Transactions) (object : ObjectId)
    (requester : Handle) (mode : LockMode) :
    Transactions.identities (table.acquire made object requester mode).made = made.identities := by
  simp only [LockTable.acquire]
  cases present : made[requester]? with
  | none => rfl
  | some txn =>
      simp only
      repeat' split
      all_goals first | rfl | exact Transactions.identities_wound _ _

instance : Discipline.PreservesIdentities Locking where
  judge_identities scene handle txn object action := by
    change Transactions.identities (Locking.judge scene handle txn object action).2.made = _
    unfold Locking.judge
    split
    · exact LockTable.acquire_identities _ _ _ _ _
    · rfl

instance : Discipline.PreservesIdentities Watermarks where
  judge_identities scene handle txn object action := by
    change Transactions.identities (Watermarks.judge scene handle txn object action).2.made = _
    unfold Watermarks.judge
    repeat' split
    all_goals first
      | rfl
      | exact Transactions.identities_modify _ _ Transaction.forceAbort_identity

instance : Discipline.PreservesIdentities Ledger where
  judge_identities scene handle txn object action := by
    change Transactions.identities (Ledger.judge scene handle txn object action).2.made = _
    unfold Ledger.judge
    split <;> rfl

/-- The primitive operations of an engine. -/
inductive Move where
  | begin
  | access (object : ObjectId) (id : TxnId) (action : Action)
  | finish (id : TxnId) (commit : Bool)
  | log (id : TxnId) (row : Row)
  | evict (id : TxnId)

namespace Engine

variable {β : Type} [Discipline β] {engine : Engine β}

def after (engine : Engine β) : Move → Engine β
  | .begin => engine.begin.2
  | .access object id action => (engine.access object id action).2
  | .finish id commit => (engine.finish id commit).2
  | .log id row => engine.log id row
  | .evict id => engine.evict id

/-- The accesses of a batch, up to and including the first one that is refused. -/
def asked (engine : Engine β) (id : TxnId) (action : Action) : List ObjectId → List Move
  | [] => []
  | object :: rest =>
      let (verdict, next) := engine.access object id action
      .access object id action ::
        if verdict.isAllowed then next.asked id action rest else []

/-- The moves of a call. Calls that only inspect the engine have none. -/
def moves (engine : Engine β) : Call → List Move
  | .begin => [.begin]
  | .access object id action => [.access object id action]
  | .accessAll objects id action => engine.asked id action objects
  | .finish id commit => [.finish id commit]
  | .log id row => [.log id row]
  | .shutdown => engine.roster.ids.map .evict
  | .logged _ | .look _ | .active | .counters => []

theorem accessFrom_eq_asked (verdict : Verdict) (engine : Engine β) (id : TxnId) (action : Action)
    (objects : List ObjectId) :
    (accessFrom verdict engine id action objects).2 =
      (engine.asked id action objects).foldl after engine := by
  induction objects generalizing verdict engine with
  | nil => rfl
  | cons object rest ih =>
      simp only [accessFrom, asked, List.foldl_cons, after]
      split
      · exact ih _ _
      · rfl

/-- A call has the effect of its moves in sequence. -/
theorem step_eq_moves (engine : Engine β) (call : Call) :
    (engine.step call).2 = (engine.moves call).foldl after engine := by
  cases call with
  | accessAll objects id action => exact accessFrom_eq_asked _ engine id action objects
  | shutdown => simp only [step, shutdown, moves, List.foldl_map, after]
  | _ => rfl

/-- The identity of a new transaction: its number, and the same number as timestamp if the
discipline stamps. -/
def birth (β : Type) [Discipline β] (id : TxnId) : TxnId × Option Timestamp :=
  (id, if Discipline.stamps β then some id else none)

/-- Transactions are numbered consecutively in order of creation, and live ones are indexed by their
number. -/
structure Orderly (engine : Engine β) : Prop where
  numbered : Transactions.identities engine.roster.made =
    (List.range' 1 engine.last).map (birth β)
  seated : ∀ {id : TxnId} {handle : Handle}, engine.roster.live[id]? = some handle →
    handle + 1 = id ∧ id ≤ engine.last

namespace Orderly

theorem of_kept {next : Engine β} (orderly : engine.Orderly) (last : next.last = engine.last)
    (identities : Transactions.identities next.roster.made =
      Transactions.identities engine.roster.made)
    (kept : ∀ {id : TxnId} {handle : Handle}, next.roster.live[id]? = some handle →
      engine.roster.live[id]? = some handle) : next.Orderly where
  numbered := by rw [identities, last, orderly.numbered]
  seated seat := by
    rw [last]
    exact orderly.seated (kept seat)

theorem size_made (orderly : engine.Orderly) : engine.roster.made.size = engine.last := by
  have lengths := congrArg List.length orderly.numbered
  simpa [Transactions.identities] using lengths

theorem exists_find? {id : TxnId} (orderly : engine.Orderly) (live : id ∈ engine.roster.live) :
    ∃ handle txn, engine.roster.find? id = some (handle, txn) := by
  obtain ⟨handle, seat⟩ := Option.isSome_iff_exists.mp
    (Std.ExtTreeMap.mem_iff_isSome_getElem?.mp live)
  obtain ⟨place, bound⟩ := orderly.seated seat
  have inBounds : handle < engine.roster.made.size := by
    rw [orderly.size_made]
    lia
  exact ⟨handle, _, Roster.find?_eq_some.mpr ⟨seat, Array.getElem?_eq_getElem inBounds⟩⟩

theorem bounds_of_live {id : TxnId} (orderly : engine.Orderly) (live : id ∈ engine.roster.live) :
    0 < id ∧ id ≤ engine.last := by
  obtain ⟨handle, txn, found⟩ := orderly.exists_find? live
  obtain ⟨place, bound⟩ := orderly.seated (Roster.find?_eq_some.mp found).1
  exact ⟨by lia, bound⟩

theorem identity_of_made {handle : Handle} {txn : Transaction} (orderly : engine.Orderly)
    (present : engine.roster.made[handle]? = some txn) : txn.identity = birth β (handle + 1) := by
  have entry : (Transactions.identities engine.roster.made)[handle]? = some txn.identity := by
    rw [Transactions.identities_getElem?, present, Option.map_some]
  have inBounds : handle < engine.last := by
    rw [← orderly.size_made]
    exact (Array.getElem?_eq_some_iff.mp present).1
  rw [orderly.numbered, List.getElem?_map, List.getElem?_range' inBounds, Option.map_some,
    Option.some.injEq] at entry
  rw [← entry]
  congr 1
  lia

theorem identity_of_find? {id : TxnId} {handle : Handle} {txn : Transaction}
    (orderly : engine.Orderly) (found : engine.roster.find? id = some (handle, txn)) :
    txn.identity = birth β id := by
  obtain ⟨seat, present⟩ := Roster.find?_eq_some.mp found
  rw [orderly.identity_of_made present, (orderly.seated seat).1]

theorem id_of_find? {id : TxnId} {handle : Handle} {txn : Transaction}
    (orderly : engine.Orderly) (found : engine.roster.find? id = some (handle, txn)) :
    txn.id = id :=
  congrArg Prod.fst (orderly.identity_of_find? found)

end Orderly

theorem fresh_orderly : (fresh : Engine β).Orderly where
  numbered := rfl
  seated seat := by simp [fresh] at seat

theorem access_live (engine : Engine β) (object : ObjectId) (id : TxnId) (action : Action) :
    (engine.access object id action).2.roster.live = engine.roster.live ∧
      (engine.access object id action).2.last = engine.last := by
  unfold access
  split <;> exact ⟨rfl, rfl⟩

theorem access_identities [Discipline.PreservesIdentities β] (engine : Engine β) (object : ObjectId)
    (id : TxnId) (action : Action) :
    Transactions.identities (engine.access object id action).2.roster.made =
      Transactions.identities engine.roster.made := by
  unfold access
  split
  · rfl
  · exact Discipline.PreservesIdentities.judge_identities _ _ _ _ _

theorem access_found {id : TxnId} {handle : Handle} {txn : Transaction}
    (found : engine.roster.find? id = some (handle, txn)) (object : ObjectId) (action : Action) :
    (engine.access object id action).1 =
        (Discipline.judge ⟨engine.roster.made, engine.books⟩ handle txn object action).1 ∧
      (engine.access object id action).2.books =
        (Discipline.judge ⟨engine.roster.made, engine.books⟩ handle txn object action).2.books := by
  constructor <;> simp only [access, found]

theorem access_absent {id : TxnId} (absent : engine.roster.find? id = none) (object : ObjectId)
    (action : Action) :
    (engine.access object id action).1 = .refused .unknown ∧
      (engine.access object id action).2.books = engine.books := by
  constructor <;> simp only [access, absent]

theorem access_counters (engine : Engine β) (object : ObjectId) (id : TxnId) (action : Action) :
    (engine.access object id action).2.counters =
      engine.counters.countVerdict (engine.access object id action).1 := by
  unfold access
  split <;> rfl

omit [Discipline β] in
theorem log_frame (engine : Engine β) (id : TxnId) (row : Row) :
    (engine.log id row).books = engine.books ∧
      (engine.log id row).roster.live = engine.roster.live ∧
      (engine.log id row).last = engine.last := by
  unfold log
  split <;> exact ⟨rfl, rfl, rfl⟩

omit [Discipline β] in
theorem log_counters (engine : Engine β) (id : TxnId) (row : Row) :
    (engine.log id row).counters = engine.counters := by
  unfold log
  split <;> rfl

theorem finish_absent {id : TxnId} (absent : engine.roster.find? id = none) (commit : Bool) :
    engine.finish id commit = (.error (.unknownTransaction id), engine) := by
  simp only [finish, absent]

theorem finish_books {id : TxnId} {handle : Handle} {txn : Transaction}
    (found : engine.roster.find? id = some (handle, txn)) (commit : Bool) :
    (engine.finish id commit).2.books =
      Discipline.leave (conclude engine.books txn commit).books id := by
  simp only [finish, found]
  split <;> rfl

theorem finish_roster {id : TxnId} {handle : Handle} {txn : Transaction}
    (found : engine.roster.find? id = some (handle, txn)) (commit : Bool) :
    (engine.finish id commit).2.roster =
        (engine.roster.put handle (conclude engine.books txn commit).txn).remove id ∧
      (engine.finish id commit).2.last = engine.last := by
  simp only [finish, found]
  split <;> exact ⟨rfl, rfl⟩

theorem evict_absent {id : TxnId} (absent : engine.roster.find? id = none) :
    engine.evict id = engine := by
  simp only [evict, absent]

theorem evict_found {id : TxnId} {handle : Handle} {txn : Transaction}
    (found : engine.roster.find? id = some (handle, txn)) :
    engine.evict id = { engine with
      roster := (engine.roster.put handle { txn with status := .terminated }).remove id
      counters := engine.counters.countEnd txn.isCommitted
      books := Discipline.leave engine.books id } := by
  simp only [evict, found, expel_txn]

/-- No move except `begin` changes the identities of the transactions. -/
theorem identities_after [Discipline.PreservesIdentities β] (engine : Engine β) {move : Move}
    (other : move ≠ .begin) :
    Transactions.identities (engine.after move).roster.made =
      Transactions.identities engine.roster.made := by
  cases move with
  | begin => exact absurd rfl other
  | access object id action => exact engine.access_identities object id action
  | log id row =>
      simp only [after, log]
      split
      · rfl
      · rename_i handle txn found
        exact Transactions.identities_set (Roster.find?_eq_some.mp found).2 (txn.append_identity row)
  | finish id commit =>
      cases found : engine.roster.find? id with
      | none => simp only [after, finish_absent found]
      | some entry =>
          simp only [after, (finish_roster found commit).1]
          exact Transactions.identities_set (Roster.find?_eq_some.mp found).2
            (conclude_identity engine.books entry.2 commit)
  | evict id =>
      cases found : engine.roster.find? id with
      | none => simp only [after, evict_absent found]
      | some entry =>
          simp only [after, evict_found found]
          exact Transactions.identities_set (Roster.find?_eq_some.mp found).2 rfl

theorem Orderly.erase {next : Engine β} {id : TxnId} (orderly : engine.Orderly)
    (last : next.last = engine.last)
    (identities : Transactions.identities next.roster.made =
      Transactions.identities engine.roster.made)
    (live : next.roster.live = engine.roster.live.erase id) : next.Orderly := by
  refine orderly.of_kept last identities fun {other seat} present => ?_
  rw [live, Std.ExtTreeMap.getElem?_erase] at present
  split at present
  · contradiction
  · exact present

theorem Orderly.after [Discipline.PreservesIdentities β] (orderly : engine.Orderly) (move : Move) :
    (engine.after move).Orderly := by
  cases move with
  | begin =>
      constructor
      · simp only [Engine.after, Engine.begin, Roster.add, Transactions.identities_push,
          orderly.numbered, List.range'_concat, List.map_append]
        simp [birth, Transaction.identity, Nat.add_comm]
      · intro id handle seat
        simp only [Engine.after, Engine.begin, Roster.add, Std.ExtTreeMap.getElem?_insert] at seat ⊢
        split at seat
        · rename_i same
          have here : engine.last + 1 = id := Std.LawfulEqCmp.compare_eq_iff_eq.mp same
          have handleEq : engine.roster.made.size = handle := Option.some.inj seat
          have size := orderly.size_made
          lia
        · have old := orderly.seated seat
          lia
  | access object id action =>
      have frame := engine.access_live object id action
      exact orderly.of_kept frame.2 (engine.access_identities object id action)
        (fun seat => by rw [← frame.1]; exact seat)
  | finish id commit =>
      cases found : engine.roster.find? id with
      | none =>
          simp only [Engine.after, finish_absent found]
          exact orderly
      | some entry =>
          obtain ⟨roster, last⟩ := finish_roster found commit
          exact orderly.erase last (engine.identities_after (by simp)) (congrArg Roster.live roster)
  | log id row =>
      have frame := engine.log_frame id row
      exact orderly.of_kept frame.2.2 (engine.identities_after (by simp))
        (fun seat => by rw [← frame.2.1]; exact seat)
  | evict id =>
      cases found : engine.roster.find? id with
      | none =>
          simp only [Engine.after, evict_absent found]
          exact orderly
      | some entry =>
          have live : (engine.evict id).roster.live = engine.roster.live.erase id := by
            rw [evict_found found]
            rfl
          refine orderly.erase ?_ (engine.identities_after (by simp)) live
          rw [Engine.after, evict_found found]

end Engine

end Isolation
