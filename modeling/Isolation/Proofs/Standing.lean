import Isolation.Proofs.History
import Isolation.Proofs.Lock.Table

/-!
Statuses of live transactions in runs without handle operations. A live transaction is active until
it is aborted by the judgement of an access, and aborted until its end.
-/

namespace Isolation

@[simp] theorem Status.rolledBack_rolledBack (status : Status) :
    status.rolledBack.rolledBack = status.rolledBack := by
  cases status <;> rfl

namespace Transactions

@[simp] theorem forceAbort_forceAbort (txn : Transaction) :
    txn.forceAbort.forceAbort = txn.forceAbort := by
  simp [Transaction.forceAbort_eq]

theorem getElem?_wound (made : Transactions) (victims : List Holder) (index : Handle) :
    (LockTable.wound made victims)[index]? =
      if index ∈ victims.map Holder.handle then made[index]?.map Transaction.forceAbort
      else made[index]? := by
  unfold LockTable.wound
  induction victims generalizing made with
  | nil => simp
  | cons victim rest ih =>
      rw [List.foldl_cons, ih, Array.getElem?_modify]
      by_cases here : victim.handle = index
      · subst here
        cases made[victim.handle]? <;> simp
      · simp [here, Ne.symm here]

end Transactions

/-- Judging changes transactions only by `forceAbort`. -/
class Discipline.OnlyForcesAborts (β : Type) [Discipline β] : Prop
    extends Discipline.PreservesIdentities β where
  judge_made : ∀ (scene : Scene β) (handle : Handle) (txn : Transaction) (object : ObjectId)
    (action : Action) (index : Handle),
    (Discipline.judge scene handle txn object action).2.made[index]? = scene.made[index]? ∨
      (Discipline.judge scene handle txn object action).2.made[index]? =
        scene.made[index]?.map Transaction.forceAbort

theorem LockTable.acquire_made_cases (table : LockTable) (made : Transactions) (object : ObjectId)
    (requester : Handle) (mode : LockMode) (index : Handle) :
    (table.acquire made object requester mode).made[index]? = made[index]? ∨
      (table.acquire made object requester mode).made[index]? =
        made[index]?.map Transaction.forceAbort := by
  cases present : made[requester]? with
  | none => simp [LockTable.acquire, present]
  | some txn =>
      rw [LockTable.acquire_made _ _ _ present]
      split
      · rw [Transactions.getElem?_wound]
        split
        · exact .inr rfl
        · exact .inl rfl
      · exact .inl rfl

instance : Discipline.OnlyForcesAborts Locking where
  judge_made scene handle txn object action index := by
    change (Locking.judge scene handle txn object action).2.made[index]? = _ ∨
      (Locking.judge scene handle txn object action).2.made[index]? = _
    unfold Locking.judge
    split
    · exact LockTable.acquire_made_cases _ _ _ _ _ _
    · exact .inl rfl

instance : Discipline.OnlyForcesAborts Watermarks where
  judge_made scene handle txn object action index := by
    change (Watermarks.judge scene handle txn object action).2.made[index]? = _ ∨
      (Watermarks.judge scene handle txn object action).2.made[index]? = _
    unfold Watermarks.judge
    split
    · exact .inl rfl
    · split
      · exact .inl rfl
      · split
        · exact .inl rfl
        · rw [Array.getElem?_modify]
          split
          · exact .inr rfl
          · exact .inl rfl

instance : Discipline.OnlyForcesAborts Ledger where
  judge_made scene handle txn object action index := by
    change (Ledger.judge scene handle txn object action).2.made[index]? = _ ∨
      (Ledger.judge scene handle txn object action).2.made[index]? = _
    unfold Ledger.judge
    split <;> exact .inl rfl

namespace Roster

variable {roster : Roster} {id : TxnId} {txn : Transaction}

theorem get?_eq_bind (roster : Roster) (id : TxnId) :
    roster.get? id = roster.live[id]?.bind fun handle => roster.made[handle]? := by
  unfold get? find?
  cases seat : roster.live[id]? with
  | none => rfl
  | some handle => cases found : roster.made[handle]? <;> simp [found]

theorem get?_remove (roster : Roster) {target : TxnId} (different : id ≠ target) :
    (roster.remove target).get? id = roster.get? id := by
  simp only [get?_eq_bind, remove, Std.ExtTreeMap.getElem?_erase,
    Std.LawfulEqCmp.compare_eq_iff_eq, if_neg different.symm]

theorem exists_find?_of_get? (found : roster.get? id = some txn) :
    ∃ handle, roster.find? id = some (handle, txn) := by
  obtain ⟨entry, entryFound, same⟩ := Option.map_eq_some_iff.mp found
  exact ⟨entry.1, by rw [entryFound, ← same]⟩

theorem get?_of_find? {handle : Handle} (found : roster.find? id = some (handle, txn)) :
    roster.get? id = some txn := by
  rw [get?, found, Option.map_some]

end Roster

namespace Engine

variable {β : Type} [Discipline β] {engine start : Engine β} {past : List Event} {id : TxnId}

omit [Discipline β] in
theorem mem_live_of_status? {status : Status} (standing : engine.status? id = some status) :
    id ∈ engine.roster.live := by
  obtain ⟨txn, found, _⟩ := Option.map_eq_some_iff.mp standing
  obtain ⟨handle, seated⟩ := Roster.exists_find?_of_get? found
  exact Roster.mem_live_of_find? seated

omit [Discipline β] in
theorem status?_of_find? {handle : Handle} {txn : Transaction}
    (found : engine.roster.find? id = some (handle, txn)) :
    engine.status? id = some txn.status := by
  rw [status?, Roster.get?_of_find? found, Option.map_some]

omit [Discipline β] in
theorem status?_eq_none (gone : id ∉ engine.roster.live) : engine.status? id = none := by
  cases standing : engine.status? id with
  | none => rfl
  | some status => exact absurd (mem_live_of_status? standing) gone

omit [Discipline β] in
theorem exists_find?_of_status? {status : Status} (standing : engine.status? id = some status) :
    ∃ handle txn, engine.roster.find? id = some (handle, txn) ∧ txn.status = status := by
  obtain ⟨txn, present, rfl⟩ := Option.map_eq_some_iff.mp standing
  obtain ⟨handle, found⟩ := Roster.exists_find?_of_get? present
  exact ⟨handle, txn, found, rfl⟩

omit [Discipline β] in
theorem find?_of_active (active : engine.status? id = some .active) :
    ∃ handle txn, engine.roster.find? id = some (handle, txn) ∧ txn.isActive = true := by
  obtain ⟨handle, txn, found, status⟩ := exists_find?_of_status? active
  exact ⟨handle, txn, found, decide_eq_true status⟩

theorem Orderly.exists_status? (orderly : engine.Orderly) (live : id ∈ engine.roster.live) :
    ∃ status, engine.status? id = some status := by
  obtain ⟨handle, txn, found⟩ := orderly.exists_find? live
  exact ⟨txn.status, status?_of_find? found⟩

theorem access_made [Discipline.OnlyForcesAborts β] (engine : Engine β) (object : ObjectId) (id : TxnId)
    (action : Action) (handle : Handle) :
    (engine.access object id action).2.roster.made[handle]? = engine.roster.made[handle]? ∨
      (engine.access object id action).2.roster.made[handle]? =
        engine.roster.made[handle]?.map Transaction.forceAbort := by
  unfold access
  split
  · exact .inl rfl
  · exact Discipline.OnlyForcesAborts.judge_made _ _ _ _ _ _

theorem access_get? [Discipline.OnlyForcesAborts β] (engine : Engine β) (object : ObjectId)
    (target : TxnId)
    (action : Action) (id : TxnId) :
    (engine.access object target action).2.roster.get? id = engine.roster.get? id ∨
      (engine.access object target action).2.roster.get? id =
        (engine.roster.get? id).map Transaction.forceAbort := by
  rw [Roster.get?_eq_bind, Roster.get?_eq_bind, (engine.access_live object target action).1]
  cases engine.roster.live[id]? with
  | none => exact .inl rfl
  | some seat => exact engine.access_made object target action seat

theorem access_status? [Discipline.OnlyForcesAborts β] (engine : Engine β) (object : ObjectId)
    (target : TxnId) (action : Action) (id : TxnId) :
    (engine.access object target action).2.status? id = engine.status? id ∨
      (engine.access object target action).2.status? id =
        (engine.status? id).map Status.rolledBack := by
  simp only [status?]
  rcases engine.access_get? object target action id with same | aborted
  · exact .inl (congrArg _ same)
  · rw [aborted, Option.map_map, Option.map_map]
    have status : Transaction.status ∘ Transaction.forceAbort = Status.rolledBack ∘ Transaction.status :=
      funext Transaction.forceAbort_status
    exact .inr (by rw [status])

theorem active_of_access [Discipline.OnlyForcesAborts β] {object : ObjectId} {target : TxnId}
    {action : Action}
    (active : (engine.access object target action).2.status? id = some .active) :
    engine.status? id = some .active := by
  rcases engine.access_status? object target action id with same | aborted
  · rwa [same] at active
  · rw [aborted] at active
    obtain ⟨status, _, rolledBack⟩ := Option.map_eq_some_iff.mp active
    cases status <;> contradiction

theorem Orderly.get?_put {target : TxnId} {handle : Handle} {txn : Transaction}
    (orderly : engine.Orderly) (found : engine.roster.find? target = some (handle, txn))
    (left : Transaction) (id : TxnId) :
    (engine.roster.put handle left).get? id =
      if id = target then some left else engine.roster.get? id := by
  obtain ⟨seat, present⟩ := Roster.find?_eq_some.mp found
  rw [Roster.get?_eq_bind, Roster.get?_eq_bind, Roster.put]
  split
  · rename_i same
    rw [same, seat, Option.bind_some, Array.getElem?_setIfInBounds_self,
      if_pos (Array.getElem?_eq_some_iff.mp present).1]
  · rename_i different
    cases other : engine.roster.live[id]? with
    | none => rfl
    | some place =>
        have here := (orderly.seated other).1
        have there := (orderly.seated seat).1
        exact Array.getElem?_setIfInBounds_ne (by lia)

theorem Orderly.get?_remove {target : TxnId} {handle : Handle} {txn : Transaction}
    (orderly : engine.Orderly) (found : engine.roster.find? target = some (handle, txn))
    (left : Transaction) (different : id ≠ target) :
    ((engine.roster.put handle left).remove target).get? id = engine.roster.get? id := by
  rw [Roster.get?_remove _ different, orderly.get?_put found, if_neg different]

theorem Orderly.get?_begin (orderly : engine.Orderly) (older : id ≠ engine.last + 1) :
    engine.begin.2.roster.get? id = engine.roster.get? id := by
  rw [Roster.get?_eq_bind, Roster.get?_eq_bind]
  simp only [begin, Roster.add, Std.ExtTreeMap.getElem?_insert,
    Std.LawfulEqCmp.compare_eq_iff_eq, if_neg older.symm]
  cases seat : engine.roster.live[id]? with
  | none => rfl
  | some place =>
      have bound := orderly.seated seat
      have size := orderly.size_made
      simp only [Option.bind_some]
      rw [Array.getElem?_push, if_neg (by lia)]

theorem status?_begin (engine : Engine β) :
    engine.begin.2.status? (engine.last + 1) = some .active := by
  rw [status?, Roster.get?_eq_bind]
  simp [begin, Roster.add]

omit [Discipline β] in
theorem status?_log (engine : Engine β) (target : TxnId) (row : Row) (id : TxnId) :
    (engine.log target row).status? id = engine.status? id := by
  unfold log
  split
  · rfl
  · rename_i handle txn found
    simp only [status?, Roster.get?_eq_bind, Roster.put]
    cases engine.roster.live[id]? with
    | none => rfl
    | some seat =>
        simp only [Option.bind_some, Array.getElem?_setIfInBounds]
        by_cases here : handle = seat
        · have present := (Roster.find?_eq_some.mp found).2
          subst here
          rw [present]
          simp [Transaction.append, (Array.getElem?_eq_some_iff.mp present).1]
        · rw [if_neg here]

theorem Orderly.status?_finish (orderly : engine.Orderly) {target : TxnId} (commit : Bool)
    (different : id ≠ target) : (engine.finish target commit).2.status? id = engine.status? id := by
  cases found : engine.roster.find? target with
  | none => rw [finish_absent found]
  | some entry =>
      rw [status?, (finish_roster found commit).1, orderly.get?_remove found _ different]
      rfl

theorem Orderly.ne_of_absent (orderly : engine.Orderly) {target : TxnId}
    (absent : engine.roster.find? target = none) (live : id ∈ engine.roster.live) : id ≠ target := by
  intro same
  obtain ⟨handle, txn, present⟩ := orderly.exists_find? live
  rw [same, absent] at present
  contradiction

theorem Orderly.mem_live_finish (orderly : engine.Orderly) {target : TxnId} (commit : Bool) :
    id ∈ (engine.finish target commit).2.roster.live ↔ id ≠ target ∧ id ∈ engine.roster.live := by
  cases found : engine.roster.find? target with
  | none =>
      rw [finish_absent found]
      exact ⟨fun live => ⟨orderly.ne_of_absent found live, live⟩, And.right⟩
  | some entry =>
      rw [(finish_roster found commit).1]
      exact Roster.mem_live_remove

theorem Orderly.status?_evict (orderly : engine.Orderly) {target : TxnId} (different : id ≠ target) :
    (engine.evict target).status? id = engine.status? id := by
  cases found : engine.roster.find? target with
  | none => rw [evict_absent found]
  | some entry =>
      rw [evict_found found, status?, orderly.get?_remove found _ different]
      rfl

theorem Orderly.mem_live_evict (orderly : engine.Orderly) {target : TxnId} :
    id ∈ (engine.evict target).roster.live ↔ id ≠ target ∧ id ∈ engine.roster.live := by
  cases found : engine.roster.find? target with
  | none =>
      rw [evict_absent found]
      exact ⟨fun live => ⟨orderly.ne_of_absent found live, live⟩, And.right⟩
  | some entry =>
      rw [evict_found found]
      exact Roster.mem_live_remove

theorem Orderly.mem_live_evicts [Discipline.PreservesIdentities β] (orderly : engine.Orderly)
    (ids : List TxnId) :
    id ∈ (ids.foldl evict engine).roster.live ↔ id ∉ ids ∧ id ∈ engine.roster.live := by
  induction ids generalizing engine with
  | nil => simp
  | cons target rest ih =>
      have next : (engine.evict target).Orderly := orderly.after (.evict target)
      rw [List.foldl_cons, ih next, orderly.mem_live_evict, List.mem_cons, not_or]
      exact ⟨fun given => ⟨⟨given.2.1, given.1⟩, given.2.2⟩,
        fun given => ⟨given.1.2, given.1.1, given.2⟩⟩

/-- Induction over a list of distinct live transactions that are evicted one after another. -/
theorem Orderly.evicts_induction [Discipline.PreservesIdentities β] {P : Engine β → List TxnId → Prop}
    {ids : List TxnId} (orderly : engine.Orderly) (distinct : ids.Nodup)
    (live : ∀ id ∈ ids, id ∈ engine.roster.live) (nobody : ∀ engine, P engine [])
    (next : ∀ (engine : Engine β) (id : TxnId) (rest : List TxnId), engine.Orderly →
      id ∈ engine.roster.live → id ∉ rest → P (engine.evict id) rest → P engine (id :: rest)) :
    P engine ids := by
  induction ids generalizing engine with
  | nil => exact nobody engine
  | cons id rest ih =>
      obtain ⟨first, others⟩ := List.nodup_cons.mp distinct
      obtain ⟨here, there⟩ := List.forall_mem_cons.mp live
      refine next engine id rest orderly here first (ih (orderly.after (.evict id)) others ?_)
      exact fun other member => orderly.mem_live_evict.mpr
        ⟨fun same => first (same ▸ member), there other member⟩

theorem Orderly.status?_after [Discipline.OnlyForcesAborts β] (orderly : engine.Orderly) (move : Move)
    (live : id ∈ (engine.after move).roster.live) :
    (engine.after move).status? id = engine.status? id ∨
    (move = .begin ∧ id = engine.last + 1 ∧ (engine.after move).status? id = some .active) ∨
    (∃ object target action, move = .access object target action ∧
      (engine.after move).status? id = (engine.status? id).map Status.rolledBack) := by
  cases move with
  | begin =>
      by_cases new : id = engine.last + 1
      · subst new
        exact .inr (.inl ⟨rfl, rfl, engine.status?_begin⟩)
      · exact .inl (congrArg (Option.map Transaction.status) (orderly.get?_begin new))
  | access object target action =>
      rcases engine.access_status? object target action id with same | aborted
      · exact .inl same
      · exact .inr (.inr ⟨object, target, action, rfl, aborted⟩)
  | log target row => exact .inl (engine.status?_log target row id)
  | finish target commit =>
      have different := ((orderly.mem_live_finish commit).mp live).1
      exact .inl (orderly.status?_finish commit different)
  | evict target =>
      cases found : engine.roster.find? target with
      | none =>
          left
          rw [Engine.after, evict_absent found]
      | some entry =>
          rw [Engine.after, evict_found found] at live
          exact .inl (orderly.status?_evict (Roster.mem_live_remove.mp live).1)

/-- Every live transaction is active or aborted. -/
def Undecided (engine : Engine β) : Prop :=
  ∀ id status, engine.status? id = some status → status = .active ∨ status = .aborted

omit [Discipline β] in
theorem undecided_of_nobody (nobody : ∀ id, id ∉ engine.roster.live) : engine.Undecided :=
  fun id _ standing => absurd (mem_live_of_status? standing) (nobody id)

theorem fresh_undecided : (fresh : Engine β).Undecided :=
  undecided_of_nobody fun id live => by simp [fresh] at live

theorem Undecided.after [Discipline.OnlyForcesAborts β] (undecided : engine.Undecided)
    (orderly : engine.Orderly) (move : Move) : (engine.after move).Undecided := by
  intro id status standing
  rcases orderly.status?_after move (mem_live_of_status? standing) with
    same | ⟨_, _, begun⟩ | ⟨_, _, _, _, aborted⟩
  · exact undecided id status (same ▸ standing)
  · rw [begun, Option.some.injEq] at standing
    exact .inl standing.symm
  · rw [aborted] at standing
    obtain ⟨before, standingBefore, rfl⟩ := Option.map_eq_some_iff.mp standing
    rcases undecided id before standingBefore with rfl | rfl <;> exact .inr rfl

theorem Reaches.undecided [Discipline.OnlyForcesAborts β] (orderly : start.Orderly)
    (undecided : start.Undecided) (reached : Reaches start past engine) : engine.Undecided := by
  induction reached with
  | start => exact undecided
  | move reached move ih => exact ih.after (reached.chronicle orderly).orderly move

omit [Discipline β] in
theorem Undecided.status_of_find? (undecided : engine.Undecided) {handle : Handle}
    {txn : Transaction} (found : engine.roster.find? id = some (handle, txn)) :
    txn.status = .active ∨ txn.status = .aborted :=
  undecided id txn.status (status?_of_find? found)

theorem Undecided.finish_eq (undecided : engine.Undecided) {handle : Handle} {txn : Transaction}
    (found : engine.roster.find? id = some (handle, txn)) (commit : Bool) :
    let asks := commit && txn.isActive
    let committed := asks && (Discipline.accept engine.books txn.id).1
    engine.finish id commit = (.ok committed, { engine with
      roster := (engine.roster.put handle { txn with status := .terminated }).remove id
      counters := engine.counters.countEnd committed
      books := Discipline.leave
        (if asks then (Discipline.accept engine.books txn.id).2 else engine.books) id }) := by
  obtain ⟨outcome, left, books⟩ :=
    conclude_of_undecided engine.books (undecided.status_of_find? found) commit
  simp only [finish, found, outcome, left, books]

theorem Orderly.run_finishes [Discipline.PreservesIdentities β] (orderly : engine.Orderly)
    (endings : List (TxnId × Bool)) :
    let calls := endings.map fun ending => Call.finish ending.1 ending.2
    (∀ id, id ∈ (engine.run calls).2.roster.live ↔
      id ∉ endings.map Prod.fst ∧ id ∈ engine.roster.live) ∧
    (∀ id ∉ endings.map Prod.fst, (engine.run calls).2.status? id = engine.status? id) ∧
    accesses (engine.history calls) = [] := by
  induction endings generalizing engine with
  | nil => exact ⟨fun id => by simp [run, runWith], fun _ _ => rfl, rfl⟩
  | cons ending rest ih =>
      obtain ⟨live, status, ungranted⟩ := ih (orderly.after (.finish ending.1 ending.2))
      refine ⟨fun id => (live id).trans ?_, fun id unended => ?_, ?_⟩
      · rw [Engine.after, orderly.mem_live_finish, List.map_cons, List.mem_cons, not_or]
        exact ⟨fun given => ⟨⟨given.2.1, given.1⟩, given.2.2⟩,
          fun given => ⟨given.1.2, given.1.1, given.2⟩⟩
      · rw [List.map_cons, List.mem_cons, not_or] at unended
        exact (status id unended.2).trans (orderly.status?_finish ending.2 unended.1)
      · have none : accesses (engine.events (.finish ending.1 ending.2)) = [] :=
          accesses_events fun _ _ _ => by simp
        have first : engine.eventsOf (engine.moves (.finish ending.1 ending.2)) =
            engine.events (.finish ending.1 ending.2) := List.append_nil _
        rw [List.map_cons, history, first, accesses_append, none]
        exact ungranted

theorem Chronicle.aborted_after [Discipline.OnlyForcesAborts β] (chronicle : engine.Chronicle past)
    (move : Move) (aborted : engine.status? id = some .aborted)
    (running : ∀ event ∈ engine.events move, event.ends id = false) :
    (engine.after move).status? id = some .aborted := by
  have before := mem_live_of_status? aborted
  have live : id ∈ (engine.after move).roster.live :=
    (engine.mem_live_after move id).mpr (.inl ⟨before, running⟩)
  rcases chronicle.orderly.status?_after move live with
    same | ⟨_, new, _⟩ | ⟨_, _, _, _, again⟩
  · rw [same, aborted]
  · have bound := (chronicle.orderly.bounds_of_live before).2
    lia
  · rw [again, aborted]
    rfl

theorem Chronicle.aborted_moves [Discipline.OnlyForcesAborts β] (chronicle : engine.Chronicle past)
    (moves : List Move) (aborted : engine.status? id = some .aborted)
    (running : ∀ event ∈ engine.eventsOf moves, event.ends id = false) :
    (moves.foldl after engine).status? id = some .aborted := by
  induction moves generalizing engine past with
  | nil => exact aborted
  | cons move rest ih =>
      simp only [eventsOf, List.forall_mem_append] at running
      exact ih (chronicle.move move) (chronicle.aborted_after move aborted running.1) running.2

/-- A refused batch consists of allowed accesses followed by one refused access, whose verdict is
that of the batch. -/
theorem asked_of_refused {verdict : Verdict} {action : Action} {objects : List ObjectId}
    (allowed : verdict.isAllowed = true)
    (refused : (accessFrom verdict engine id action objects).1.isAllowed = false) :
    ∃ before object, engine.asked id action objects = before ++ [.access object id action] ∧
      (before.foldl Engine.after engine).roster.live = engine.roster.live ∧
      ((before.foldl Engine.after engine).access object id action).1 =
        (accessFrom verdict engine id action objects).1 := by
  induction objects generalizing verdict engine with
  | nil =>
      rw [accessFrom, allowed] at refused
      contradiction
  | cons object rest ih =>
      simp only [accessFrom, asked] at refused ⊢
      cases granted : (engine.access object id action).1.isAllowed with
      | false => exact ⟨[], object, rfl, rfl, by simp⟩
      | true =>
          simp only [granted, if_true] at refused ⊢
          obtain ⟨before, last, whole, live, same⟩ := ih granted refused
          exact ⟨.access object id action :: before, last, by rw [whole, List.cons_append],
            live.trans (engine.access_live object id action).1, same⟩

theorem Orderly.aborted_before [Discipline.OnlyForcesAborts β] (orderly : engine.Orderly)
    {moves : List Move}
    (silent : ∀ object target action, .access object target action ∉ moves)
    (aborted : (moves.foldl Engine.after engine).status? id = some .aborted) :
    engine.status? id = some .aborted := by
  induction moves generalizing engine with
  | nil => exact aborted
  | cons move rest ih =>
      have next := ih (orderly.after move)
        (fun object target action member => silent object target action (List.mem_cons_of_mem _ member))
        aborted
      rcases orderly.status?_after move (mem_live_of_status? next) with
        same | ⟨_, _, begun⟩ | ⟨object, target, action, rfl, _⟩
      · exact same ▸ next
      · rw [begun] at next
        contradiction
      · exact absurd (List.mem_cons_self) (silent object target action)

end Engine

def Call.asker? : Call → Option TxnId
  | access _ id _ | accessAll _ id _ => some id
  | _ => none

def Call.ends : Call → TxnId → Bool
  | finish target _, id => target = id
  | shutdown, _ => true
  | _, _ => false

theorem Engine.accessFrom_live {β : Type} [Discipline β] (verdict : Verdict) (engine : Engine β)
    (id : TxnId) (action : Action) (objects : List ObjectId) :
    (accessFrom verdict engine id action objects).2.roster.live = engine.roster.live := by
  induction objects generalizing verdict engine with
  | nil => rfl
  | cons object rest ih =>
      simp only [accessFrom]
      split
      · exact (ih _ _).trans (engine.access_live object id action).1
      · exact (engine.access_live object id action).1

theorem Engine.Orderly.mem_live_step {β : Type} [Discipline β] [Discipline.PreservesIdentities β]
    {engine : Engine β} (orderly : engine.Orderly) (call : Call) (id : TxnId) :
    id ∈ (engine.step call).2.roster.live ↔
      (id ∈ engine.roster.live ∧ call.ends id = false) ∨ (call = .begin ∧ id = engine.last + 1) := by
  cases call with
  | begin =>
      simp only [step, answered, begin, Roster.add, Std.ExtTreeMap.mem_insert,
        Std.LawfulEqCmp.compare_eq_iff_eq, Call.ends, and_true, true_and]
      rw [or_comm, eq_comm]
  | access object target action =>
      simp [step, answered, (engine.access_live object target action).1, Call.ends]
  | accessAll objects target action =>
      simp [step, answered, accessAll, accessFrom_live, Call.ends]
  | finish target commit =>
      simp only [step, answered, orderly.mem_live_finish, Call.ends, decide_eq_false_iff_not,
        reduceCtorEq, false_and, or_false]
      rw [and_comm, ne_comm]
  | log target row => simp [step, (engine.log_frame target row).2.1, Call.ends]
  | shutdown =>
      simp [step, shutdown, orderly.mem_live_evicts, Roster.ids, Call.ends]
  | logged _ | look _ | active | counters => simp [step, Call.ends]

theorem Engine.moves_silent {β : Type} [Discipline β] (engine : Engine β) {call : Call}
    (silent : call.asker? = none) (object : ObjectId) (id : TxnId) (action : Action) :
    .access object id action ∉ engine.moves call := by
  cases call with
  | access _ _ _ | accessAll _ _ _ => contradiction
  | _ => simp [moves]

theorem Engine.moves_of_refused {β : Type} [Discipline β] {engine : Engine β} {call : Call}
    {id : TxnId} {refusal : Refusal} (asks : call.asker? = some id)
    (refused : (engine.step call).1 = .judged (.refused refusal)) :
    ∃ before object action, engine.moves call = before ++ [.access object id action] ∧
      (before.foldl after engine).roster.live = engine.roster.live ∧
      ((before.foldl after engine).access object id action).1 = .refused refusal := by
  cases call with
  | access object target action =>
      cases asks
      have verdict : (engine.access object id action).1 = .refused refusal := by
        simpa [step, answered] using refused
      exact ⟨[], object, action, rfl, rfl, verdict⟩
  | accessAll objects target action =>
      cases asks
      have verdict : (engine.accessAll objects id action).1 = .refused refusal := by
        simpa [step, answered] using refused
      have stopped : (engine.accessAll objects id action).1.isAllowed = false := by
        rw [verdict]
        rfl
      obtain ⟨before, object, whole, live, same⟩ := asked_of_refused rfl stopped
      exact ⟨before, object, action, whole, live, same.trans verdict⟩
  | _ => contradiction

end Isolation
