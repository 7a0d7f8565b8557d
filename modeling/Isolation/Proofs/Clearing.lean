import Isolation.Proofs.Shelf

/-!
The state after `finish` and after `shutdown`. Every outcome of `finish` removes the transaction
from the roster, releases its locks and keeps its access record only if it is in the committed list;
all other transactions are framed. A shutdown does this for every live transaction and empties the
lock table.
-/

namespace Isolation

namespace Shelf

variable {shelf : Shelf} {ids : List TxnId} {id : TxnId}

theorem marks_leaves (shelf : Shelf) (ids : List TxnId) :
    (ids.foldl leave shelf).marks = shelf.marks := by
  induction ids generalizing shelf with
  | nil => rfl
  | cons id rest ih => exact ih (shelf.leave id)

theorem committed_leaves (shelf : Shelf) (ids : List TxnId) :
    (ids.foldl leave shelf).ledger.committed = shelf.ledger.committed := by
  induction ids generalizing shelf with
  | nil => rfl
  | cons id rest ih => exact (ih (shelf.leave id)).trans (shelf.ledger.discard_committed id)

theorem record?_leaves (shelf : Shelf) (ids : List TxnId) (id : TxnId) :
    (ids.foldl leave shelf).ledger.record? id =
      if id ∈ ids ∧ id ∉ shelf.ledger.committed then none else shelf.ledger.record? id := by
  induction ids generalizing shelf with
  | nil => simp
  | cons first rest ih =>
      have listed : (shelf.leave first).ledger.committed = shelf.ledger.committed :=
        shelf.ledger.discard_committed first
      have found : (shelf.leave first).ledger.record? id =
          if id = first ∧ first ∉ shelf.ledger.committed then none else shelf.ledger.record? id :=
        shelf.ledger.record?_discard first id
      rw [List.foldl_cons, ih, listed, found]
      by_cases own : id = first
      · subst own
        simp only [List.mem_cons_self, true_and]
        split <;> simp_all
      · simp only [List.mem_cons, own, false_or, false_and, if_false]

end Shelf

namespace Engine

variable {β : Type} [Discipline β] {engine : Engine β} {id : TxnId} {ids : List TxnId}
  {handle : Handle} {txn : Transaction}

theorem Orderly.made_evict (orderly : engine.Orderly) (live : id ∈ engine.roster.live)
    (handle : Handle) :
    (engine.evict id).roster.made[handle]? = engine.roster.made[handle]?.map fun txn =>
      if txn.id = id then { txn with status := .terminated } else txn := by
  obtain ⟨place, leaving, found⟩ := orderly.exists_find? live
  obtain ⟨seat, present⟩ := Roster.find?_eq_some.mp found
  rw [evict_found found]
  simp only [Roster.remove, Roster.put, Array.getElem?_setIfInBounds]
  by_cases here : place = handle
  · subst here
    have inBounds := (Array.getElem?_eq_some_iff.mp present).1
    rw [if_pos rfl, if_pos inBounds, present, Option.map_some, if_pos (orderly.id_of_find? found)]
  · rw [if_neg here]
    cases made : engine.roster.made[handle]? with
    | none => rfl
    | some txn =>
        have name : txn.id = handle + 1 := congrArg Prod.fst (orderly.identity_of_made made)
        have other : txn.id ≠ id := fun same =>
          here (Nat.succ.inj ((orderly.seated seat).1.trans (same.symm.trans name)))
        rw [Option.map_some, if_neg other]

theorem Orderly.made_evicts [Discipline.PreservesIdentities β] (orderly : engine.Orderly)
    (distinct : ids.Nodup)
    (live : ∀ id ∈ ids, id ∈ engine.roster.live) :
    ∀ handle : Handle, (ids.foldl Engine.evict engine).roster.made[handle]? =
      engine.roster.made[handle]?.map fun txn =>
        if txn.id ∈ ids then { txn with status := .terminated } else txn := by
  refine orderly.evicts_induction (P := fun engine ids => ∀ handle : Handle,
    (ids.foldl Engine.evict engine).roster.made[handle]? = engine.roster.made[handle]?.map fun txn =>
      if txn.id ∈ ids then { txn with status := .terminated } else txn)
    distinct live (fun engine handle => ?_) ?_
  · cases made : engine.roster.made[handle]? <;> simp [made]
  · intro engine id rest orderly here first ih handle
    rw [List.foldl_cons, ih, orderly.made_evict here]
    cases engine.roster.made[handle]? with
    | none => rfl
    | some txn =>
        simp only [Option.map_some, List.mem_cons]
        by_cases own : txn.id = id
        · simp [own]
        · simp [own]

theorem Orderly.shelf_evicts [Discipline.PreservesIdentities β] [Discipline.ActsOnShelf β]
    (orderly : engine.Orderly)
    (distinct : ids.Nodup) (live : ∀ id ∈ ids, id ∈ engine.roster.live) :
    (ids.foldl Engine.evict engine).shelf = ids.foldl Shelf.leave engine.shelf := by
  refine orderly.evicts_induction (P := fun engine ids =>
    (ids.foldl Engine.evict engine).shelf = ids.foldl Shelf.leave engine.shelf)
    distinct live (fun engine => rfl) ?_
  intro engine id rest orderly here first ih
  obtain ⟨handle, txn, found⟩ := orderly.exists_find? here
  rw [List.foldl_cons, ih, shelf_evict found, List.foldl_cons]

theorem ids_shutdown [Discipline.PreservesIdentities β] (orderly : engine.Orderly) :
    engine.shutdown.roster.ids = [] := by
  refine List.eq_nil_iff_forall_not_mem.mpr fun id member => ?_
  obtain ⟨gone, live⟩ := (orderly.mem_live_evicts _).mp (Roster.mem_ids.mp member)
  exact gone (Roster.mem_ids.mpr live)

/-- Ending a transaction preserves the roster entries and the states of all other transactions. -/
theorem finish_others (found : engine.roster.find? id = some (handle, txn)) (commit : Bool) :
    (∀ other ≠ id, (engine.finish id commit).2.roster.handle? other = engine.roster.handle? other) ∧
      ∀ place : Handle, place ≠ handle →
        (engine.finish id commit).2.roster.made[place]? = engine.roster.made[place]? := by
  rw [(finish_roster found commit).1]
  constructor
  · intro other different
    simp only [Roster.remove, Roster.put, Roster.handle?, Std.ExtTreeMap.getElem?_erase,
      Std.LawfulEqCmp.compare_eq_iff_eq, if_neg different.symm]
  · exact fun place different => Array.getElem?_setIfInBounds_ne different.symm

theorem Orderly.finish_shelf [Discipline.ActsOnShelf β] (orderly : engine.Orderly)
    (found : engine.roster.find? id = some (handle, txn)) (commit : Bool) :
    (engine.finish id commit).2.shelf.table = engine.shelf.table.release id ∧
      (engine.finish id commit).2.shelf.marks = engine.shelf.marks ∧
      ∀ other ≠ id, (engine.finish id commit).2.shelf.ledger.record? other =
        engine.shelf.ledger.record? other := by
  have others (ledger : Ledger) (other : TxnId) (different : other ≠ id) :
      (ledger.discard id).record? other = ledger.record? other := by
    rw [Ledger.record?_discard, if_neg fun both => different both.1]
  rcases shelf_finish orderly found commit with same | validated
  · rw [same]
    exact ⟨rfl, rfl, others _⟩
  · rw [validated]
    exact ⟨rfl, rfl, fun other different =>
      (others _ other different).trans ((engine.shelf.ledger.record?_validate id).1 other different)⟩

end Engine

/-- `finish` appends a transaction to the committed list exactly if it answers with a commit. -/
theorem Ledger.committed_finish {engine : Engine Ledger} (orderly : engine.Orderly) (id : TxnId)
    (commit : Bool) :
    (engine.finish id commit).2.books.committed = engine.books.committed ++
      if (engine.finish id commit).1 = .ok true then [id] else [] := by
  refine (committed_after orderly (.finish id commit)).trans (congrArg _ ?_)
  simp only [Engine.events]
  cases (engine.finish id commit).1 with
  | ok committed => cases committed <;> rfl
  | error reason => cases reason <;> rfl

theorem Shelf.OwnedBy.recorded_iff {shelf : Shelf} {live : Std.ExtTreeMap TxnId Handle}
    {last id : TxnId}
    (owned : shelf.OwnedBy live last) (gone : id ∉ live) :
    (shelf.ledger.record? id).isSome = true ↔ id ∈ shelf.ledger.committed :=
  ⟨fun found => (owned.filed id found).resolve_left gone, fun member => (owned.listed id member).1⟩

namespace Running

variable {running : Running} {id : TxnId} {handle : Handle} {txn : Transaction}

theorem finish_absent (gone : running.handle? id = none) (commit : Bool) :
    (running.act fun engine => engine.finish id commit) =
      (.error (.unknownTransaction id), running) := by
  cases running <;>
  · rename_i engine
    have absent : engine.roster.find? id = none := by
      cases found : engine.roster.find? id with
      | none => rfl
      | some entry =>
          have seat : engine.roster.handle? id = some entry.1 := (Roster.find?_eq_some.mp found).1
          exact absurd (seat.symm.trans gone) (Option.some_ne_none _)
    rw [act, Engine.finish_absent absent]

theorem ShelfOwned.recorded_iff (owned : running.ShelfOwned) (gone : running.handle? id = none) :
    (running.shelf.ledger.record? id).isSome = true ↔ id ∈ running.shelf.ledger.committed := by
  cases running <;>
  · refine Shelf.OwnedBy.recorded_iff owned fun live => ?_
    rw [Std.ExtTreeMap.mem_iff_isSome_getElem?] at live
    exact absurd live (Option.not_isSome_iff_eq_none.mpr gone)

theorem handle?_of_nobody (nobody : running.ids = []) (id : TxnId) : running.handle? id = none := by
  have empty (roster : Roster) (nobody : roster.ids = []) : roster.handle? id = none := by
    refine Option.not_isSome_iff_eq_none.mp fun seated => ?_
    have live := Roster.mem_ids.mpr (Std.ExtTreeMap.mem_iff_isSome_getElem?.mpr seated)
    rw [nobody] at live
    contradiction
  cases running <;> exact empty _ nobody

theorem finish_shelf (orderly : running.Holds fun engine => engine.Orderly)
    (seat : running.handle? id = some handle) (present : running.made[handle]? = some txn)
    (commit : Bool) :
    let next := running.after (.call (.finish id commit))
    next.shelf.table = running.shelf.table.release id ∧
      next.shelf.marks = running.shelf.marks ∧
      ∀ other ≠ id, next.shelf.ledger.record? other = running.shelf.ledger.record? other := by
  cases running <;>
    exact Engine.Orderly.finish_shelf orderly (Roster.find?_eq_some.mpr ⟨seat, present⟩) commit

theorem finish_others (seat : running.handle? id = some handle)
    (present : running.made[handle]? = some txn) (commit : Bool) :
    let next := running.after (.call (.finish id commit))
    (∀ other ≠ id, next.handle? other = running.handle? other) ∧
      ∀ place ≠ handle, next.made[place]? = running.made[place]? := by
  cases running <;> exact Engine.finish_others (Roster.find?_eq_some.mpr ⟨seat, present⟩) commit

theorem committed_finish (orderly : running.Holds fun engine => engine.Orderly) (id : TxnId)
    (commit : Bool) :
    (running.after (.call (.finish id commit))).shelf.ledger.committed =
      running.shelf.ledger.committed ++
        if running.algorithm = .validation ∧
            (running.ask fun engine => (engine.finish id commit).1) = .ok true then [id]
        else [] := by
  cases running with
  | validation engine =>
      simp only [algorithm, true_and]
      exact Ledger.committed_finish orderly id commit
  | lock engine | timestamp engine => rfl

theorem ids_shutdown (orderly : running.Holds fun engine => engine.Orderly) :
    (running.after (.call .shutdown)).ids = [] := by
  cases running <;> exact Engine.ids_shutdown orderly

theorem made_shutdown (orderly : running.Holds fun engine => engine.Orderly) (handle : Handle) :
    (running.after (.call .shutdown)).made[handle]? = running.made[handle]?.map fun txn =>
      if txn.id ∈ running.ids then { txn with status := .terminated } else txn := by
  cases running <;>
    exact Engine.Orderly.made_evicts orderly ((Roster.ids_pairwise _).imp Nat.ne_of_lt)
      (fun _ => Roster.mem_ids.mp) handle

theorem counters_shutdown (orderly : running.Holds fun engine => engine.Orderly) :
    (running.after (.call .shutdown)).counters = running.counters + {
      committed := running.ids.countP
        fun id => (running.ask fun engine => engine.status? id) = some .committed
      aborted := running.ids.countP
        fun id => (running.ask fun engine => engine.status? id) ≠ some .committed } := by
  cases running <;>
    exact Engine.Orderly.counters_evicts orderly ((Roster.ids_pairwise _).imp Nat.ne_of_lt)
      fun _ => Roster.mem_ids.mp

theorem shelf_shutdown (orderly : running.Holds fun engine => engine.Orderly) :
    (running.after (.call .shutdown)).shelf = running.ids.foldl Shelf.leave running.shelf := by
  cases running <;>
    exact Engine.Orderly.shelf_evicts orderly ((Roster.ids_pairwise _).imp Nat.ne_of_lt)
      fun _ => Roster.mem_ids.mp

/-- With an empty roster, no object has a holder or a mode. -/
theorem ShelfOwned.unheld (owned : running.ShelfOwned) (nobody : running.ids = []) (object : ObjectId) :
    running.shelf.table.holders object = [] ∧ running.shelf.table.mode? object = none := by
  have empty (shelf : Shelf) (roster : Roster) (last : TxnId) (owned : shelf.OwnedBy roster.live last)
      (nobody : roster.ids = []) :
      shelf.table.holders object = [] ∧ shelf.table.mode? object = none := by
    have unheld : shelf.table.holders object = [] := by
      refine List.eq_nil_iff_forall_not_mem.mpr fun holder member => ?_
      have live := Roster.mem_ids.mpr (owned.attended object holder member)
      rw [nobody] at live
      contradiction
    obtain ⟨objects, represents⟩ := owned.represents
    refine ⟨unheld, ?_⟩
    rw [LockTable.mode?, (represents.wellFormed object).settled]
    exact LockTable.modeOf_eq_none.mpr unheld
  cases running <;> exact empty _ _ _ owned nobody

/-- A shutdown of an engine with an empty roster is the identity. -/
theorem shutdown_of_nobody (nobody : running.ids = []) : running.after (.call .shutdown) = running := by
  cases running <;>
    simp only [ids, ask] at nobody <;>
    simp only [after, change, Engine.step, Engine.shutdown, nobody, List.foldl_nil]

end Running

/-- The postcondition of `finish` for a live transaction, after any sequence of deeds. The outcome
is a commit, a rollback or an invalid transition. In each case the transaction is no longer live and
holds no lock, and the ledger has a record of it if and only if it is in the committed list. Every
other transaction keeps its roster entry, its state, its locks and its record. -/
theorem finish_clears (algorithm : Algorithm) (recovery : Option RecoveryLog) (deeds : List Deed) :
    let running := deeds.foldl Running.after (Running.fresh recovery algorithm)
    ∀ id handle txn, running.handle? id = some handle → running.made[handle]? = some txn → ∀ commit,
      let outcome := running.ask fun engine => (engine.finish id commit).1
      let next := running.after (.call (.finish id commit))
      (outcome = .ok true ∨ outcome = .ok false ∨
        ∃ reason, outcome = .error (.invalidTransition reason)) ∧
      next.handle? id = none ∧
      (∀ object, next.shelf.table.holders object =
        (running.shelf.table.holders object).filter (·.id ≠ id)) ∧
      ((next.shelf.ledger.record? id).isSome = true ↔ id ∈ next.shelf.ledger.committed) ∧
      next.shelf.ledger.committed = running.shelf.ledger.committed ++
        (if running.algorithm = .validation ∧ outcome = .ok true then [id] else []) ∧
      next.shelf.marks = running.shelf.marks ∧
      (∀ other ≠ id, next.handle? other = running.handle? other ∧
        next.shelf.ledger.record? other = running.shelf.ledger.record? other) ∧
      (∀ place ≠ handle, next.made[place]? = running.made[place]?) ∧
      ∀ again, (next.act fun engine => engine.finish id again) =
        (.error (.unknownTransaction id), next) := by
  intro running id handle txn seat present commit outcome next
  have fresh := Running.fresh_orderly recovery algorithm
  have orderly : running.Holds fun engine => engine.Orderly := Running.orderly_deeds fresh deeds
  have owned : next.ShelfOwned := by
    have whole := Running.shelfOwned_deeds (Running.fresh_shelfOwned recovery algorithm)
      (Running.fresh_activeLive recovery algorithm) fresh (deeds ++ [.call (.finish id commit)])
    rwa [List.foldl_concat] at whole
  obtain ⟨gone, _, ends⟩ := Running.finish_ends orderly seat present commit
  obtain ⟨table, marks, records⟩ := Running.finish_shelf orderly seat present commit
  obtain ⟨handles, others⟩ := Running.finish_others seat present commit
  refine ⟨?_, gone, fun object => ?_, owned.recorded_iff gone, Running.committed_finish orderly id commit,
    marks, fun other different => ⟨handles other different, records other different⟩, others,
    Running.finish_absent gone⟩
  · split at ends
    · obtain ⟨committed, answer, _⟩ := ends
      cases committed with
      | true => exact .inl answer
      | false => exact .inr (.inl answer)
    · exact .inr (.inr ⟨_, ends.1⟩)
  · rw [table]
    exact LockTable.holders_release _ id object

/-- A commit request for a partially committed transaction is answered with an invalid transition
and discards its access record; the records of other transactions are preserved. -/
theorem finish_clears_stuck :
    let deeds : List Deed := [.call .begin, .call .begin, .call (.access "x" 1 .read),
      .call (.access "x" 2 .write), .moveTo 0 .partiallyCommitted]
    let running := deeds.foldl Running.after (Running.fresh none .validation)
    let next := running.after (.call (.finish 1 true))
    running.handle? 1 = some 0 ∧
    running.made[0]? = some { id := 1, status := .partiallyCommitted } ∧
    (running.ask fun engine => (engine.finish 1 true).1) =
      .error (.invalidTransition (.illegal 1 .partiallyCommitted .partiallyCommitted)) ∧
    (running.shelf.ledger.record? 1).isSome = true ∧
    (next.shelf.ledger.record? 1).isSome = false ∧
    (next.shelf.ledger.record? 2).isSome = true ∧
    (next.act fun engine => engine.finish 1 false) = (.error (.unknownTransaction 1), next) := by
  intro deeds running next
  have seat : running.handle? 1 = some 0 := by decide
  have present : running.made[0]? = some { id := 1, status := .partiallyCommitted } := by decide
  have stuck : (running.ask fun engine => (engine.finish 1 true).1) =
      .error (.invalidTransition (.illegal 1 .partiallyCommitted .partiallyCommitted)) := by decide
  obtain ⟨_, _, _, recorded, committed, _, others, _, again⟩ :=
    finish_clears .validation none deeds 1 0 _ seat present true
  have unlisted : 1 ∉ next.shelf.ledger.committed := by
    rw [committed, stuck]
    decide
  have kept := (others 2 (by decide)).2
  refine ⟨seat, present, stuck, by decide, ?_, ?_, again false⟩
  · exact Bool.eq_false_iff.mpr fun found => unlisted (recorded.mp found)
  · rw [kept]
    decide

/-- The postcondition of `shutdown`, after any sequence of deeds. No transaction is live; each one
that was live is terminated and counted once, as committed if its status was `committed` and as
aborted otherwise. No object is locked, the marks and the committed list are unchanged, and the
ledger has records of committed transactions only. A second shutdown is the identity. -/
theorem shutdown_clears (algorithm : Algorithm) (recovery : Option RecoveryLog) (deeds : List Deed) :
    let running := deeds.foldl Running.after (Running.fresh recovery algorithm)
    let next := running.after (.call .shutdown)
    next.ids = [] ∧
    (∀ handle : Handle, next.made[handle]? = running.made[handle]?.map fun txn =>
      if txn.id ∈ running.ids then { txn with status := .terminated } else txn) ∧
    next.counters = running.counters + {
      committed := running.ids.countP
        fun id => (running.ask fun engine => engine.status? id) = some .committed
      aborted := running.ids.countP
        fun id => (running.ask fun engine => engine.status? id) ≠ some .committed } ∧
    (∀ object, next.shelf.table.holders object = [] ∧ next.shelf.table.mode? object = none) ∧
    next.shelf.marks = running.shelf.marks ∧
    next.shelf.ledger.committed = running.shelf.ledger.committed ∧
    (∀ id, (next.shelf.ledger.record? id).isSome = true ↔ id ∈ next.shelf.ledger.committed) ∧
    (∀ id ∈ next.shelf.ledger.committed,
      next.shelf.ledger.record? id = running.shelf.ledger.record? id) ∧
    next.after (.call .shutdown) = next := by
  intro running next
  have fresh := Running.fresh_orderly recovery algorithm
  have orderly : running.Holds fun engine => engine.Orderly := Running.orderly_deeds fresh deeds
  have owned : next.ShelfOwned := by
    have whole := Running.shelfOwned_deeds (Running.fresh_shelfOwned recovery algorithm)
      (Running.fresh_activeLive recovery algorithm) fresh (deeds ++ [.call .shutdown])
    rwa [List.foldl_concat] at whole
  have nobody : next.ids = [] := Running.ids_shutdown orderly
  have shelf : next.shelf = running.ids.foldl Shelf.leave running.shelf :=
    Running.shelf_shutdown orderly
  have listed : next.shelf.ledger.committed = running.shelf.ledger.committed := by
    rw [shelf, Shelf.committed_leaves]
  refine ⟨nobody, Running.made_shutdown orderly, Running.counters_shutdown orderly,
    owned.unheld nobody, ?_, listed, fun id => ?_, fun id member => ?_,
    Running.shutdown_of_nobody nobody⟩
  · rw [shelf, Shelf.marks_leaves]
  · exact owned.recorded_iff (Running.handle?_of_nobody nobody id)
  · rw [listed] at member
    rw [shelf, Shelf.record?_leaves, if_neg fun both => both.2 member]

end Isolation
