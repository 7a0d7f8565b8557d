import Isolation.Proofs.Endings
import Isolation.Proofs.Lock.Rule
import Isolation.Proofs.Lost

/-!
Ownership of locks and records. In every state reached by calls, handle operations and direct lock
requests, each lock holder is live and each transaction with a record is live or committed. The
proofs use one representation of the books of all disciplines.
-/

namespace Isolation

/-- The books of all three disciplines. An engine uses one component, and the others are empty. -/
structure Shelf where
  table : LockTable := {}
  marks : Watermarks := {}
  ledger : Ledger := {}

theorem LockTable.release_empty (id : TxnId) : ({} : LockTable).release id = {} := by
  refine congrArg LockTable.mk (Std.ExtTreeMap.ext_getElem? fun object => ?_)
  rw [Std.ExtTreeMap.getElem?_map, Std.ExtTreeMap.getElem?_empty, Option.map_none]

namespace Ledger

variable {ledger : Ledger} {id other : TxnId}

theorem record?_discard (ledger : Ledger) (id other : TxnId) :
    (ledger.discard id).record? other =
      if other = id ∧ id ∉ ledger.committed then none else ledger.record? other := by
  by_cases committed : id ∈ ledger.committed
  · rw [discard, if_pos committed, if_neg fun both => both.2 committed]
  · rw [discard_of_not_mem committed]
    by_cases own : other = id
    · subst own
      rw [if_pos ⟨rfl, committed⟩]
      exact Std.ExtTreeMap.getElem?_erase_self
    · rw [if_neg fun both => own both.1]
      exact record?_erase ledger own

theorem discard_empty (id : TxnId) : ({} : Ledger).discard id = {} := by
  rw [discard, if_neg List.not_mem_nil, Std.ExtTreeMap.erase_empty]

theorem record?_access (ledger : Ledger) (id : TxnId) (object : ObjectId) (action : Action) :
    ∀ other ≠ id, (ledger.access id object action).record? other = ledger.record? other := by
  intro other different
  rw [access_eq, record?_put, if_neg different.symm]
  exact (ledger.touch_frame id).2.2 other different

theorem record?_validate (ledger : Ledger) (id : TxnId) :
    (∀ other ≠ id, (ledger.validate id).2.record? other = ledger.record? other) ∧
      ((ledger.validate id).2.record? id).isSome = (ledger.validate id).1.isValid := by
  obtain ⟨_, _, others⟩ := ledger.touch_frame id
  cases valid : (ledger.validate id).1.isValid with
  | true =>
      rw [validate_valid valid]
      refine ⟨fun other different => ?_, ?_⟩
      · exact (record?_put _ id other _).trans ((if_neg different.symm).trans (others other different))
      · exact congrArg Option.isSome ((record?_put _ id id _).trans (if_pos rfl))
  | false =>
      rw [validate_invalid valid]
      refine ⟨fun other different => ?_, ?_⟩
      · exact (record?_erase _ different).trans (others other different)
      · exact congrArg Option.isSome Std.ExtTreeMap.getElem?_erase_self

end Ledger

namespace Shelf

variable {shelf : Shelf} {live : Std.ExtTreeMap TxnId Handle} {last id : TxnId}

/-- The books after the departure of a transaction. -/
def leave (shelf : Shelf) (id : TxnId) : Shelf :=
  { shelf with table := shelf.table.release id, ledger := shelf.ledger.discard id }

/-- Every lock holder is live, and every transaction with a record is live or in the committed list. -/
structure OwnedBy (shelf : Shelf) (live : Std.ExtTreeMap TxnId Handle) (last : TxnId) : Prop where
  represents : ∃ objects, shelf.table.Represents objects
  attended : ∀ object, ∀ holder ∈ shelf.table.holders object, holder.id ∈ live
  filed : ∀ id, (shelf.ledger.record? id).isSome = true → id ∈ live ∨ id ∈ shelf.ledger.committed
  listed : ∀ id ∈ shelf.ledger.committed,
    (shelf.ledger.record? id).isSome = true ∧ id ∉ live ∧ id ≤ last

namespace OwnedBy

theorem empty : OwnedBy {} ∅ 0 where
  represents := ⟨∅, .empty⟩
  attended object holder member := by contradiction
  filed id found := by simp [Ledger.record?] at found
  listed id member := by contradiction

theorem begin (owned : shelf.OwnedBy live last) (handle : Handle) :
    shelf.OwnedBy (live.insert (last + 1) handle) (last + 1) where
  represents := owned.represents
  attended object holder member := by
    rw [Std.ExtTreeMap.mem_insert]
    exact .inr (owned.attended object holder member)
  filed id found := by
    rw [Std.ExtTreeMap.mem_insert]
    exact (owned.filed id found).imp_left .inr
  listed id member := by
    obtain ⟨found, gone, bound⟩ := owned.listed id member
    refine ⟨found, ?_, Nat.le_succ_of_le bound⟩
    rw [Std.ExtTreeMap.mem_insert, Std.LawfulEqCmp.compare_eq_iff_eq]
    rintro (rfl | present)
    · exact absurd bound (Nat.not_succ_le_self last)
    · exact gone present

theorem acquire (owned : shelf.OwnedBy live last) {made : Transactions} {requester : Handle}
    (seated : ∀ txn, made[requester]? = some txn → txn.status = .active → txn.id ∈ live)
    (object : ObjectId) (mode : LockMode) :
    OwnedBy { shelf with table := (shelf.table.acquire made object requester mode).table } live last where
  represents := by
    obtain ⟨objects, represents⟩ := owned.represents
    exact ⟨_, represents.acquire made object requester mode⟩
  attended place holder member := by
    cases present : made[requester]? with
    | none =>
        simp only [LockTable.acquire, present, LockTable.holders_put_same] at member
        exact owned.attended place holder member
    | some txn =>
        by_cases active : txn.status = .active
        · rcases LockTable.mem_holders_acquire present member with ⟨before, held, _, same⟩ | ⟨_, own⟩
          · rw [← same]
            exact owned.attended place before held
          · rw [own]
            exact seated txn present active
        · rw [LockTable.acquire_of_inactive present active] at member
          rw [LockTable.holders_put_same] at member
          exact owned.attended place holder member
  filed := owned.filed
  listed := owned.listed

theorem raise (owned : shelf.OwnedBy live last) (marks : Watermarks) :
    OwnedBy { shelf with marks } live last :=
  ⟨owned.represents, owned.attended, owned.filed, owned.listed⟩

theorem access (owned : shelf.OwnedBy live last) (here : id ∈ live) (object : ObjectId)
    (action : Action) :
    OwnedBy { shelf with ledger := shelf.ledger.access id object action } live last := by
  have others := shelf.ledger.record?_access id object action
  have same : (shelf.ledger.access id object action).committed = shelf.ledger.committed :=
    (shelf.ledger.touch_frame id).1
  constructor
  case represents => exact owned.represents
  case attended => exact owned.attended
  case filed =>
      intro other found
      by_cases own : other = id
      · exact .inl (own ▸ here)
      · rw [others other own] at found
        rw [same]
        exact owned.filed other found
  case listed =>
      intro other member
      rw [same] at member
      obtain ⟨found, gone, bound⟩ := owned.listed other member
      rw [others other fun own => gone (own ▸ here)]
      exact ⟨found, gone, bound⟩

/-- `Shelf.leave` preserves ownership when the transaction is removed from the roster. A transaction
that is in the committed list by then keeps its record. -/
theorem leave (owned : shelf.OwnedBy live last) (bound : id ≤ last) (here : id ∈ live) {next : Shelf}
    (table : next.table = shelf.table)
    (others : ∀ other ≠ id, next.ledger.record? other = shelf.ledger.record? other)
    (committed : next.ledger.committed = shelf.ledger.committed ∨
      next.ledger.committed = shelf.ledger.committed ++ [id] ∧
        (next.ledger.record? id).isSome = true) :
    (next.leave id).OwnedBy (live.erase id) last := by
  have remains {other : TxnId} : other ∈ live.erase id ↔ other ≠ id ∧ other ∈ live := by
    rw [Std.ExtTreeMap.mem_erase, Std.compare_ne_eq_iff_ne, ne_comm]
  have unlisted : id ∉ shelf.ledger.committed := fun member => (owned.listed id member).2.1 here
  have listing : (next.leave id).ledger.committed = next.ledger.committed :=
    next.ledger.discard_committed id
  constructor
  case represents =>
      obtain ⟨objects, represents⟩ := owned.represents
      rw [← table] at represents
      exact ⟨objects, represents.release id⟩
  case attended =>
      intro object holder member
      simp only [Shelf.leave, LockTable.holders_release, List.mem_filter, decide_eq_true_eq] at member
      rw [table] at member
      exact remains.mpr ⟨member.2, owned.attended object holder member.1⟩
  case filed =>
      intro other found
      rw [listing]
      simp only [Shelf.leave, Ledger.record?_discard] at found
      split at found
      · contradiction
      · rename_i kept
        by_cases own : other = id
        · refine .inr (Classical.byContradiction fun absent => kept ⟨own, own ▸ absent⟩)
        · rw [others other own] at found
          refine (owned.filed other found).imp (fun present => remains.mpr ⟨own, present⟩) fun member => ?_
          rcases committed with same | ⟨more, _⟩
          · rw [same]
            exact member
          · rw [more]
            exact List.mem_append_left _ member
  case listed =>
      intro other member
      rw [listing] at member
      have kept : (next.leave id).ledger.record? other = next.ledger.record? other := by
        refine (next.ledger.record?_discard id other).trans (if_neg fun both => both.2 ?_)
        exact both.1 ▸ member
      rw [kept]
      have before (old : other ∈ shelf.ledger.committed) :
          (next.ledger.record? other).isSome = true ∧ other ∉ live.erase id ∧ other ≤ last := by
        obtain ⟨found, gone, bound⟩ := owned.listed other old
        rw [others other fun own => unlisted (own ▸ old)]
        exact ⟨found, fun present => gone (remains.mp present).2, bound⟩
      rcases committed with same | ⟨more, found⟩
      · exact before (same ▸ member)
      · rw [more, List.mem_append, List.mem_singleton] at member
        rcases member with old | rfl
        · exact before old
        · exact ⟨found, fun present => (remains.mp present).1 rfl, bound⟩

end OwnedBy

/-- The changes of the books by one judgement. -/
inductive Judged (shelf : Shelf) (made : Transactions) (handle : Handle)
    (id : TxnId) : Shelf → Prop where
  | same : Judged shelf made handle id shelf
  | acquire (object : ObjectId) (mode : LockMode) : Judged shelf made handle id
      { shelf with table := (shelf.table.acquire made object handle mode).table }
  | raise (marks : Watermarks) : Judged shelf made handle id { shelf with marks }
  | access (object : ObjectId) (action : Action) : Judged shelf made handle id
      { shelf with ledger := shelf.ledger.access id object action }

end Shelf

/-- A representation of the books as a shelf, with the effect of each operation of the discipline on
it. -/
class Discipline.ActsOnShelf (β : Type) [Discipline β] where
  shelf : β → Shelf
  judged (scene : Scene β) (handle : Handle) (txn : Transaction) (object : ObjectId) (action : Action) :
    (shelf scene.books).Judged scene.made handle txn.id
      (shelf (Discipline.judge scene handle txn object action).2.books)
  accepted (books : β) (id : TxnId) :
    shelf (Discipline.accept books id).2 = shelf books ∨
      shelf (Discipline.accept books id).2 =
        { shelf books with ledger := ((shelf books).ledger.validate id).2 }
  left (books : β) (id : TxnId) : shelf (Discipline.leave books id) = (shelf books).leave id

instance : Discipline.ActsOnShelf Locking where
  shelf books := { table := books.table }
  judged scene handle txn object action := by
    rw [Locking.judge_eq]
    unfold Locking.judge
    split
    · exact .acquire object (Locking.modeFor action)
    · exact .same
  accepted _ _ := .inl rfl
  left books id := by
    rw [Shelf.leave, Ledger.discard_empty]
    rfl

instance : Discipline.ActsOnShelf Watermarks where
  shelf books := { marks := books }
  judged scene handle txn object action := by
    rw [Watermarks.judge_eq]
    unfold Watermarks.judge
    split
    · exact .same
    · split
      · exact .same
      · split
        · exact .raise _
        · exact .same
  accepted _ _ := .inl rfl
  left books id := by
    rw [Shelf.leave, Ledger.discard_empty, LockTable.release_empty]
    rfl

instance : Discipline.ActsOnShelf Ledger where
  shelf books := { ledger := books }
  judged scene handle txn object action := by
    rw [Ledger.judge_eq]
    unfold Ledger.judge
    split
    · exact .same
    · exact .access object action
  accepted _ _ := .inr rfl
  left books id := by
    rw [Shelf.leave, LockTable.release_empty]
    rfl

namespace Engine

variable {β : Type} [Discipline β] [Discipline.ActsOnShelf β] {engine : Engine β} {id : TxnId}
  {handle : Handle} {txn : Transaction}

def shelf (engine : Engine β) : Shelf :=
  Discipline.ActsOnShelf.shelf engine.books

def ShelfOwned (engine : Engine β) : Prop :=
  engine.shelf.OwnedBy engine.roster.live engine.last

theorem shelf_evict (found : engine.roster.find? id = some (handle, txn)) :
    (engine.evict id).shelf = engine.shelf.leave id := by
  rw [evict_found found]
  exact Discipline.ActsOnShelf.left engine.books id

/-- Ending a transaction removes its locks and its record, after a validation or without one. -/
theorem shelf_finish (orderly : engine.Orderly) (found : engine.roster.find? id = some (handle, txn))
    (commit : Bool) :
    (engine.finish id commit).2.shelf = engine.shelf.leave id ∨
      (engine.finish id commit).2.shelf =
        { engine.shelf with ledger := (engine.shelf.ledger.validate id).2 }.leave id := by
  have same : txn.id = id := orderly.id_of_find? found
  have left : (engine.finish id commit).2.shelf =
      (Discipline.ActsOnShelf.shelf (conclude engine.books txn commit).books).leave id := by
    rw [shelf, finish_books found]
    exact Discipline.ActsOnShelf.left _ id
  rw [left]
  have asked {answer : Bool} (accepted : Discipline.accept engine.books txn.id =
      (answer, (conclude engine.books txn commit).books)) :
      (conclude engine.books txn commit).books = (Discipline.accept engine.books id).2 := by
    rw [← same, accepted]
  rcases conclude_cases engine.books txn commit with ⟨_, accepted⟩ | ⟨_, unasked | refused⟩
  · rw [asked accepted]
    exact (Discipline.ActsOnShelf.accepted engine.books id).imp (congrArg (Shelf.leave · id))
      (congrArg (Shelf.leave · id))
  · rw [unasked]
    exact .inl rfl
  · rw [asked refused]
    exact (Discipline.ActsOnShelf.accepted engine.books id).imp (congrArg (Shelf.leave · id))
      (congrArg (Shelf.leave · id))

theorem ShelfOwned.access (owned : engine.ShelfOwned) (orderly : engine.Orderly)
    (object : ObjectId) (id : TxnId)
    (action : Action) : (engine.access object id action).2.ShelfOwned := by
  obtain ⟨live, last⟩ := engine.access_live object id action
  rw [ShelfOwned, live, last]
  cases found : engine.roster.find? id with
  | none =>
      rw [shelf, (access_absent found object action).2]
      exact owned
  | some entry =>
      obtain ⟨handle, txn⟩ := entry
      have here : txn.id ∈ engine.roster.live := by
        rw [orderly.id_of_find? found]
        exact Roster.mem_live_of_find? found
      have present := (Roster.find?_eq_some.mp found).2
      have judged :=
        Discipline.ActsOnShelf.judged ⟨engine.roster.made, engine.books⟩ handle txn object action
      rw [shelf, (access_found found object action).2]
      generalize Discipline.ActsOnShelf.shelf
        (Discipline.judge ⟨engine.roster.made, engine.books⟩ handle txn object action).2.books = next
        at judged
      cases judged with
      | same => exact owned
      | acquire place mode =>
          refine Shelf.OwnedBy.acquire owned (fun requester asking _ => ?_) place mode
          rw [Option.some.inj (asking.symm.trans present)]
          exact here
      | raise marks => exact Shelf.OwnedBy.raise owned marks
      | access place kind => exact Shelf.OwnedBy.access owned here place kind

theorem ShelfOwned.finish (owned : engine.ShelfOwned) (orderly : engine.Orderly) (id : TxnId)
    (commit : Bool) :
    (engine.finish id commit).2.ShelfOwned := by
  cases found : engine.roster.find? id with
  | none =>
      rw [finish_absent found]
      exact owned
  | some entry =>
      have here := Roster.mem_live_of_find? found
      have bound := (orderly.bounds_of_live here).2
      obtain ⟨roster, last⟩ := finish_roster found commit
      have live : (engine.finish id commit).2.roster.live = engine.roster.live.erase id :=
        congrArg Roster.live roster
      rw [ShelfOwned, live, last]
      rcases shelf_finish orderly found commit with same | validated
      · rw [same]
        exact Shelf.OwnedBy.leave owned bound here rfl (fun _ _ => rfl) (.inl rfl)
      · rw [validated]
        obtain ⟨others, found⟩ := engine.shelf.ledger.record?_validate id
        refine Shelf.OwnedBy.leave owned bound here rfl others ?_
        rw [Ledger.validate_committed, found]
        cases (engine.shelf.ledger.validate id).1.isValid with
        | true => exact .inr ⟨rfl, rfl⟩
        | false => exact .inl rfl

theorem ShelfOwned.evict (owned : engine.ShelfOwned) (orderly : engine.Orderly) (id : TxnId) :
    (engine.evict id).ShelfOwned := by
  cases found : engine.roster.find? id with
  | none =>
      rw [evict_absent found]
      exact owned
  | some entry =>
      have here := Roster.mem_live_of_find? found
      have bound := (orderly.bounds_of_live here).2
      rw [ShelfOwned, shelf_evict found, evict_found found]
      exact Shelf.OwnedBy.leave owned bound here rfl (fun _ _ => rfl) (.inl rfl)

theorem ShelfOwned.after (owned : engine.ShelfOwned) (orderly : engine.Orderly) (move : Move) :
    (engine.after move).ShelfOwned := by
  cases move with
  | begin => exact Shelf.OwnedBy.begin owned _
  | access object id action => exact owned.access orderly object id action
  | finish id commit => exact owned.finish orderly id commit
  | log id row =>
      obtain ⟨books, live, last⟩ := engine.log_frame id row
      rw [Engine.after, ShelfOwned, shelf, books, live, last]
      exact owned
  | evict id => exact owned.evict orderly id

theorem ShelfOwned.moves [Discipline.PreservesIdentities β] (owned : engine.ShelfOwned)
    (orderly : engine.Orderly)
    (moves : List Move) : (moves.foldl Engine.after engine).ShelfOwned := by
  induction moves generalizing engine with
  | nil => exact owned
  | cons move rest ih => exact ih (owned.after orderly move) (orderly.after move)

theorem ShelfOwned.touch (owned : engine.ShelfOwned) (place : Handle) (touch : Transaction.Touch) :
    (engine.touch place touch).2.ShelfOwned := by
  obtain ⟨live, last, books⟩ := engine.touch_frame place touch
  rw [ShelfOwned, live, last, shelf, books]
  exact owned

end Engine

/-- No path of the lifecycle graph returns to `active`. -/
theorem Status.Way.of_active {source : Status} {path : List Status} (way : Way source path .active) :
    path = [] ∧ source = .active := by
  induction path generalizing source with
  | nil => exact ⟨rfl, way⟩
  | cons next rest ih =>
      obtain ⟨legal, onward⟩ := way
      rw [(ih onward).2] at legal
      cases source <;> contradiction

/-- A transaction that is active after a step was active before it and has passed no status in it. -/
theorem Transactions.exists_active_of_goes {made later : Transactions} {handle : Handle}
    {path : List Status} {left : Transaction} (absent : made[handle]? = none → later[handle]? = none)
    (goes : ∀ txn, made[handle]? = some txn → ∃ left, later[handle]? = some left ∧ txn.Goes path left)
    (stays : later[handle]? = some left) (active : left.status = .active) :
    ∃ txn, made[handle]? = some txn ∧ txn.status = .active ∧ txn.id = left.id ∧ path = [] := by
  cases before : made[handle]? with
  | none =>
      rw [absent before] at stays
      contradiction
  | some txn =>
      obtain ⟨again, same, identity, way⟩ := goes txn before
      cases stays.symm.trans same
      rw [active] at way
      obtain ⟨unmoved, standing⟩ := way.of_active
      exact ⟨txn, rfl, standing, (congrArg Prod.fst identity).symm, unmoved⟩

/-- Every active transaction is live. -/
def Engine.ActiveLive {β : Type} (engine : Engine β) : Prop :=
  ∀ (handle : Handle) (txn : Transaction), engine.roster.made[handle]? = some txn →
    txn.status = .active → txn.id ∈ engine.roster.ids

namespace Engine

variable {β : Type} [Discipline β] {engine : Engine β} {id : TxnId} {handle : Handle}
  {txn : Transaction}

/-- The roster maps the name of a live transaction to its handle. -/
theorem Orderly.seat_of_live (orderly : engine.Orderly)
    (made : engine.roster.made[handle]? = some txn) (live : txn.id ∈ engine.roster.live) :
    engine.roster.handle? txn.id = some handle := by
  obtain ⟨place, other, found⟩ := orderly.exists_find? live
  have seat := (Roster.find?_eq_some.mp found).1
  have name : txn.id = handle + 1 := congrArg Prod.fst (orderly.identity_of_made made)
  have here : place = handle := Nat.succ.inj ((orderly.seated seat).1.trans name)
  exact here ▸ seat

/-- A path from `active` to `terminated` is nonempty. -/
theorem passed_ne_nil {left : Transaction} {path : List Status} (goes : txn.Goes path left)
    (active : txn.status = .active) (ended : left.status = .terminated) : path ≠ [] := by
  rintro rfl
  have same : txn.status = left.status := goes.way
  rw [active, ended] at same
  contradiction

theorem ActiveLive.after [Discipline.OnlyForcesAborts β] (present : engine.ActiveLive)
    (orderly : engine.Orderly)
    (move : Move) : (engine.after move).ActiveLive := by
  have stays (other : move ≠ .begin)
      (kept : ∀ (handle : Handle) (txn : Transaction), engine.roster.made[handle]? = some txn →
        txn.status = .active → engine.way handle move = [] → txn.id ∈ engine.roster.live →
          txn.id ∈ (engine.after move).roster.live) : (engine.after move).ActiveLive := by
    intro handle left stays active
    obtain ⟨txn, made, standing, name, unmoved⟩ := Transactions.exists_active_of_goes
      (Transactions.absent_of_identities (engine.identities_after other))
      (fun _ => engine.exists_goes_after move) stays active
    rw [Roster.mem_ids, ← name]
    exact kept handle txn made standing unmoved (Roster.mem_ids.mp (present handle txn made standing))
  cases move with
  | begin =>
      intro handle txn made active
      simp only [Engine.after, begin, Roster.add, Array.getElem?_push] at made ⊢
      rw [Roster.mem_ids, Std.ExtTreeMap.mem_insert]
      split at made
      · cases made
        exact .inl Std.ReflCmp.compare_self
      · exact .inr (Roster.mem_ids.mp (present handle txn made active))
  | access object id action =>
      refine stays (by simp) fun _ _ _ _ _ live => ?_
      rw [Engine.after, (engine.access_live object id action).1]
      exact live
  | log id row =>
      refine stays (by simp) fun _ _ _ _ _ live => ?_
      rw [Engine.after, (engine.log_frame id row).2.1]
      exact live
  | finish id commit =>
      refine stays (by simp) fun handle txn made active unmoved live => ?_
      refine (orderly.mem_live_finish commit).mpr ⟨fun own => ?_, live⟩
      have seat := orderly.seat_of_live made live
      rw [own] at seat
      simp only [way, made, if_pos seat] at unmoved
      have left := (conclude_of_undecided engine.books (.inl active) commit).2.1
      exact passed_ne_nil (goes_conclude engine.books txn commit) active (by rw [left]) unmoved
  | evict id =>
      refine stays (by simp) fun handle txn made active unmoved live => ?_
      refine orderly.mem_live_evict.mpr ⟨fun own => ?_, live⟩
      have seat := orderly.seat_of_live made live
      rw [own] at seat
      simp only [way, made, if_pos seat] at unmoved
      exact passed_ne_nil (Transaction.goes_of_continues (continues_expel txn)) active
        (by rw [expel_txn]) unmoved

theorem ActiveLive.moves [Discipline.OnlyForcesAborts β] (present : engine.ActiveLive)
    (orderly : engine.Orderly)
    (moves : List Move) : (moves.foldl Engine.after engine).ActiveLive := by
  induction moves generalizing engine with
  | nil => exact present
  | cons move rest ih => exact ih (present.after orderly move) (orderly.after move)

theorem ShelfOwned.acquire {engine : Engine Locking} (owned : engine.ShelfOwned)
    (present : engine.ActiveLive)
    (place : Handle) (object : ObjectId) (mode : LockMode) :
    (engine.acquire place object mode).2.ShelfOwned :=
  Shelf.OwnedBy.acquire owned
    (fun txn made active => Roster.mem_ids.mp (present place txn made active)) object mode

end Engine

namespace Running

variable {running : Running} {deed : Deed}

/-- The shelf of the running engine. -/
def shelf : Running → Shelf
  | lock engine => engine.shelf
  | timestamp engine => engine.shelf
  | validation engine => engine.shelf

def ShelfOwned : Running → Prop
  | lock engine => engine.ShelfOwned
  | timestamp engine => engine.ShelfOwned
  | validation engine => engine.ShelfOwned

def ActiveLive (running : Running) : Prop :=
  ∀ (handle : Handle) (txn : Transaction), running.made[handle]? = some txn →
    txn.status = .active → txn.id ∈ running.ids

theorem fresh_activeLive (recovery : Option RecoveryLog) (algorithm : Algorithm) :
    (fresh recovery algorithm).ActiveLive := by
  have nobody : (fresh recovery algorithm).made = #[] := by cases algorithm <;> rfl
  intro handle txn made
  simp [nobody] at made

theorem fresh_shelfOwned (recovery : Option RecoveryLog) (algorithm : Algorithm) :
    (fresh recovery algorithm).ShelfOwned := by
  cases algorithm <;> exact Shelf.OwnedBy.empty

/-- A deed that is not a call preserves the set of live transactions. -/
theorem ids_after (uncalled : ∀ call, deed ≠ .call call) : (running.after deed).ids = running.ids := by
  cases deed with
  | call call => exact absurd rfl (uncalled call)
  | moveTo place target =>
      cases running <;> exact congrArg (·.keys) (Engine.touch_frame _ place (.moveTo target)).1
  | forceAbort place =>
      cases running <;> exact congrArg (·.keys) (Engine.touch_frame _ place .forceAbort).1
  | acquire place object mode => cases running <;> rfl

theorem activeLive_after (present : running.ActiveLive)
    (orderly : running.Holds fun engine => engine.Orderly) (deed : Deed) :
    (running.after deed).ActiveLive := by
  have stays (uncalled : ∀ call, deed ≠ .call call) : (running.after deed).ActiveLive := by
    intro handle left stays active
    obtain ⟨txn, made, standing, name, _⟩ := Transactions.exists_active_of_goes
      (fun absent => (absent_after uncalled absent).1) (fun _ => running.exists_goes_after deed)
      stays active
    rw [ids_after uncalled, ← name]
    exact present handle txn made standing
  cases deed with
  | call call =>
      cases running <;>
        simp only [after, change, Engine.step_eq_moves] <;>
        exact Engine.ActiveLive.moves present orderly _
  | moveTo _ _ | forceAbort _ | acquire _ _ _ => exact stays (by simp)

theorem shelfOwned_after (owned : running.ShelfOwned) (present : running.ActiveLive)
    (orderly : running.Holds fun engine => engine.Orderly) (deed : Deed) :
    (running.after deed).ShelfOwned := by
  cases deed with
  | call call =>
      cases running <;>
        simp only [after, change, Engine.step_eq_moves] <;>
        exact Engine.ShelfOwned.moves owned orderly _
  | moveTo place target => cases running <;> exact Engine.ShelfOwned.touch owned place (.moveTo target)
  | forceAbort place => cases running <;> exact Engine.ShelfOwned.touch owned place .forceAbort
  | acquire place object mode =>
      cases running with
      | lock engine => exact Engine.ShelfOwned.acquire owned present place object mode
      | timestamp engine | validation engine => exact owned

/-- Ownership of locks and records is invariant under every sequence of deeds. -/
theorem shelfOwned_deeds (owned : running.ShelfOwned) (present : running.ActiveLive)
    (orderly : running.Holds fun engine => engine.Orderly) (deeds : List Deed) :
    (deeds.foldl after running).ShelfOwned := by
  induction deeds generalizing running with
  | nil => exact owned
  | cons deed rest ih =>
      exact ih (shelfOwned_after owned present orderly deed) (activeLive_after present orderly deed)
        (orderly_after orderly deed)

end Running

end Isolation
