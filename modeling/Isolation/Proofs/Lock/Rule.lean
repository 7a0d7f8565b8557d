import Isolation.Proofs.Lock.Representation
import Isolation.Proofs.Standing

/-!
The decision rule of lock requests, for arbitrary tables. Locks are granted to active transactions
without conflicting holders only. A blocked request preserves all locks and aborts those conflicting
holders that are running and younger than the requester.
-/

namespace Isolation

namespace LockTable

variable {table : LockTable} {made : Transactions} {scene : Scene LockTable} {object : ObjectId}
  {requester : Handle} {mode : LockMode} {txn : Transaction} {holders : List Holder}

/-- The name of the transaction with the given handle. -/
def nameOf (made : Transactions) (handle : Handle) : Option TxnId :=
  made[handle]?.map Transaction.id

theorem nameOf_acquire (table : LockTable) (made : Transactions) (object : ObjectId)
    (requester : Handle) (mode : LockMode) (handle : Handle) :
    nameOf (table.acquire made object requester mode).made handle = nameOf made handle := by
  unfold nameOf
  rcases table.acquire_made_cases made object requester mode handle with same | aborted
  · rw [same]
  · have name : Transaction.id ∘ Transaction.forceAbort = Transaction.id :=
      funext fun txn => congrArg Prod.fst txn.forceAbort_identity
    rw [aborted, Option.map_map, name]

theorem nameOf_operate (scene : Scene LockTable) (operation : Operation) (handle : Handle) :
    nameOf (operate scene operation).made handle = nameOf scene.made handle := by
  cases operation with
  | acquire object requester mode => exact nameOf_acquire _ _ _ _ _ _
  | release id => rfl
  | touch place touch =>
      simp only [operate]
      split
      · rfl
      · rename_i txn present
        split
        · rfl
        · rename_i left touched
          simp only [nameOf, Array.getElem?_setIfInBounds]
          split
          · rename_i here
            subst here
            rw [if_pos (Array.getElem?_eq_some_iff.mp present).1, present, Option.map_some,
              Option.map_some, Transaction.id_of_touched touched]
          · rfl

/-- Each holder has the name of the transaction with its handle. -/
def Owned (scene : Scene LockTable) : Prop :=
  ∀ object, ∀ holder ∈ scene.books.holders object, nameOf scene.made holder.handle = some holder.id

theorem mem_holders_acquire {holder : Holder} {other : ObjectId} (present : made[requester]? = some txn)
    (member : holder ∈ (table.acquire made object requester mode).table.holders other) :
    (∃ before ∈ table.holders other, before.handle = holder.handle ∧ before.id = holder.id) ∨
      (holder.handle = requester ∧ holder.id = txn.id) := by
  have kept : holder ∈ table.holders other →
      (∃ before ∈ table.holders other, before.handle = holder.handle ∧ before.id = holder.id) ∨
        (holder.handle = requester ∧ holder.id = txn.id) :=
    fun before => .inl ⟨holder, before, rfl, rfl⟩
  by_cases here : object = other
  · subst here
    rcases acquire_cases table object mode present with
      ⟨_, left⟩ | ⟨_, _, ⟨_, left⟩ | ⟨_, _, left⟩⟩
    · rw [left, holders_put_same] at member
      exact kept member
    · rw [left, holders_put_same] at member
      exact kept member
    · rw [left, holders_put, if_pos rfl] at member
      split at member
      · obtain ⟨before, present, rfl⟩ := List.mem_map.mp member
        refine .inl ⟨before, present, ?_⟩
        split <;> exact ⟨rfl, rfl⟩
      · rw [LockEntry.holders_push, List.mem_append, List.mem_singleton] at member
        rcases member with before | rfl
        · exact kept before
        · exact .inr ⟨rfl, rfl⟩
  · rw [acquire_other present here] at member
    exact kept member

theorem Owned.operate (owned : Owned scene) (operation : Operation) :
    Owned (LockTable.operate scene operation) := by
  intro object holder member
  rw [nameOf_operate]
  cases operation with
  | acquire place requester mode =>
      cases present : scene.made[requester]? with
      | none =>
          simp only [LockTable.operate, acquire, present, holders_put_same] at member
          exact owned object holder member
      | some txn =>
          rcases mem_holders_acquire present member with ⟨before, held, sameHandle, sameId⟩ | ⟨new, name⟩
          · rw [← sameHandle, ← sameId]
            exact owned object before held
          · rw [new, name, nameOf, present, Option.map_some]
  | release id =>
      simp only [LockTable.operate, holders_release, List.mem_filter] at member
      exact owned object holder member.1
  | touch place touch =>
      have same : (LockTable.operate scene (.touch place touch)).books = scene.books := by
        simp only [LockTable.operate]
        split
        · rfl
        · split <;> rfl
      rw [same] at member
      exact owned object holder member

theorem Owned.run (owned : Owned scene) (operations : List Operation) :
    Owned (operations.foldl LockTable.operate scene) := by
  induction operations generalizing scene with
  | nil => exact owned
  | cons operation rest ih => exact ih (owned.operate operation)

theorem owned_empty (made : Transactions) : Owned { made, books := {} } := by
  intro object holder member
  contradiction

theorem Owned.exists_owner (owned : Owned scene) {holder : Holder}
    (member : holder ∈ scene.books.holders object) :
    ∃ owner, scene.made[holder.handle]? = some owner ∧ owner.id = holder.id :=
  Option.map_eq_some_iff.mp (owned object holder member)

theorem heldBy_of_mem (distinct : (holders.map Holder.id).Nodup) {holder : Holder}
    (member : holder ∈ holders) : heldBy holders holder.id = some holder.mode := by
  cases found : heldBy holders holder.id with
  | none => exact absurd (List.mem_map_of_mem member) (heldBy_eq_none.mp found)
  | some held =>
      obtain ⟨other, present, same, rfl⟩ := heldBy_eq_some found
      rw [List.inj_on_of_nodup_map distinct present member same]

theorem any_covers_iff (wellFormed : (table.entry object).WellFormed) {id : TxnId} :
    (heldBy (table.holders object) id).any (·.covers mode) = true ↔
      Holds (table.holders object) id mode := by
  constructor
  · intro covered
    cases found : heldBy (table.holders object) id with
    | none => simp [found] at covered
    | some held =>
        obtain ⟨holder, member, own, rfl⟩ := heldBy_eq_some found
        exact ⟨holder, member, own, by simpa [found] using covered⟩
  · intro holds
    obtain ⟨holder, member, rfl, covers⟩ := holds
    rw [LockTable.holders, heldBy_of_mem wellFormed.distinct member, Option.any_some]
    exact covers

/-- Putting back the present entry is the identity. -/
theorem put_entry (entered : object ∈ table.entries) : table.put object
    (table.entry object) = table := by
  obtain ⟨entry, found⟩ := Option.isSome_iff_exists.mp
    (Std.ExtTreeMap.mem_iff_isSome_getElem?.mp entered)
  have same : table.entries.insert object entry = table.entries := by
    refine Std.ExtTreeMap.ext_getElem? fun other => ?_
    rw [Std.ExtTreeMap.getElem?_insert]
    split
    · rename_i here
      rw [← Std.LawfulEqCmp.eq_of_compare here, found]
    · rfl
  rw [LockTable.entry, found, Option.getD_some, put, same]

theorem mem_entries_of_holder {holder : Holder} (member : holder ∈ table.holders object) :
    object ∈ table.entries := by
  rw [Std.ExtTreeMap.mem_iff_isSome_getElem?]
  cases found : table.entries[object]? with
  | none => simp [LockTable.holders, LockTable.entry, found] at member
  | some entry => rfl

/-- The holder is running and strictly younger than the requester. -/
def Wounds (made : Transactions) (txn : Transaction) (rival : Holder) : Prop :=
  ∃ owner, made[rival.handle]? = some owner ∧
    (owner.status = .active ∨ owner.status = .partiallyCommitted) ∧ txn.age < owner.age

theorem isVictim_eq_true {rival : Holder} :
    isVictim made txn.age rival = true ↔ Wounds made txn rival := by
  have running (status : Status) :
      status.isRunning = true ↔ status = .active ∨ status = .partiallyCommitted := by
    cases status <;> simp [Status.isRunning]
  unfold isVictim Wounds
  cases made[rival.handle]? with
  | none => simp
  | some owner => simp [running, and_comm]

theorem getElem?_wound_of_wounds {victims : List Holder}
    (wounds : ∀ victim ∈ victims, Wounds made txn victim) (handle : Handle) :
    (wound made victims)[handle]? =
      if handle ∈ victims.map Holder.handle then
        made[handle]?.map fun owner => { owner with status := .aborted }
      else made[handle]? := by
  rw [Transactions.getElem?_wound]
  split
  · rename_i named
    obtain ⟨victim, member, rfl⟩ := List.mem_map.mp named
    obtain ⟨owner, present, running, _⟩ := wounds victim member
    rw [present, Option.map_some, Option.map_some, Transaction.forceAbort_eq]
    rcases running with active | underway
    · rw [active]
      rfl
    · rw [underway]
      rfl
  · rfl

theorem acquire_of_inactive (present : made[requester]? = some txn) (inactive : txn.status ≠ .active) :
    table.acquire made object requester mode =
      { outcome := .requesterInactive, table := table.put object (table.entry object), made } := by
  simp [acquire, present, Transaction.isActive, inactive]

theorem acquire_of_covered (present : made[requester]? = some txn) (active : txn.status = .active)
    (covered : (heldBy (table.holders object) txn.id).any (·.covers mode) = true) :
    table.acquire made object requester mode =
      { outcome := .granted, table := table.put object (table.entry object), made } := by
  simp only [acquire, present, Transaction.isActive, active, decide_true, Bool.not_true,
    Bool.false_eq_true, if_false, covered, if_true]

theorem acquire_of_clear (present : made[requester]? = some txn) (active : txn.status = .active)
    (uncovered : (heldBy (table.holders object) txn.id).any (·.covers mode) = false)
    (clear : conflicting (table.holders object) txn.id mode = []) :
    table.acquire made object requester mode =
      if (heldBy (table.holders object) txn.id).isSome then {
        outcome := .upgraded, made
        table := table.put object ((table.entry object).upgrade txn.id) }
      else {
        outcome := .granted, made
        table := table.put object
          ((table.entry object).push { handle := requester, id := txn.id, mode }) } := by
  simp only [acquire, present, Transaction.isActive, active, decide_true, Bool.not_true,
    Bool.false_eq_true, if_false, uncovered, clear, List.isEmpty_nil, if_true]

theorem acquire_of_blocked (present : made[requester]? = some txn) (active : txn.status = .active)
    (uncovered : (heldBy (table.holders object) txn.id).any (·.covers mode) = false)
    (blocked : conflicting (table.holders object) txn.id mode ≠ []) :
    let rivals := conflicting (table.holders object) txn.id mode
    let victims := rivals.filter (isVictim made txn.age)
    table.acquire made object requester mode = {
      outcome := if victims = [] then .wait (rivals.map Holder.id) else .wounded (victims.map Holder.id)
      table := table.put object (table.entry object)
      made := wound made victims } := by
  intro rivals victims
  have crowded : rivals.isEmpty = false := by simpa [rivals] using blocked
  simp only [acquire, present, Transaction.isActive, active, decide_true, Bool.not_true,
    Bool.false_eq_true, if_false, uncovered]
  rw [if_neg (by rw [crowded]; exact Bool.false_ne_true)]
  by_cases nobody : victims = []
  · rw [if_pos (List.isEmpty_iff.mpr nobody), if_pos nobody, nobody]
    rfl
  · rw [if_neg (fun empty => nobody (List.isEmpty_iff.mp empty)), if_neg nobody]

/-- A request for a lock that the name already holds preserves the table, whatever its outcome. -/
theorem acquire_table_of_holds (wellFormed : (table.entry object).WellFormed)
    (present : made[requester]? = some txn) (holds : Holds (table.holders object) txn.id mode) :
    (table.acquire made object requester mode).table = table := by
  obtain ⟨holder, member, _⟩ := id holds
  have unmoved : table.put object (table.entry object) = table :=
    put_entry (mem_entries_of_holder member)
  rcases acquire_cases table object mode present with
    ⟨_, left⟩ | ⟨_, _, ⟨_, left⟩ | ⟨uncovered, _⟩⟩
  · rw [left, unmoved]
  · rw [left, unmoved]
  · rw [(any_covers_iff wellFormed).mpr holds] at uncovered
    contradiction

theorem acquire_entry_other {other : ObjectId} (present : made[requester]? = some txn)
    (different : other ≠ object) :
    (table.acquire made object requester mode).table.entry other = table.entry other := by
  rcases acquire_cases table object mode present with
    ⟨_, left⟩ | ⟨_, _, ⟨_, left⟩ | ⟨_, _, left⟩⟩ <;>
    rw [left, entry_put, if_neg different.symm]

theorem exclusive_of_uncovered {holder : Holder} (member : holder ∈ holders)
    (own : holder.id = txn.id) (uncovered : ¬ Holds holders txn.id mode) :
    holder.mode = .shared ∧ mode = .exclusive := by
  have short : holder.mode.covers mode = false :=
    Bool.eq_false_iff.mpr fun covers => uncovered ⟨holder, member, own, covers⟩
  refine ⟨?_, LockMode.exclusive_of_not_covers short⟩
  cases held : holder.mode with
  | shared => rfl
  | exclusive =>
      rw [held, LockMode.exclusive_covers] at short
      contradiction

/-- The decision rule as a relation between the holders before a request, its outcome, the holders
after it and the victims. The premises of the constructors are mutually exclusive. -/
inductive Ruled (made : Transactions) (holders : List Holder) (requester : Handle) (txn : Transaction)
    (mode : LockMode) : LockOutcome → List Holder → List Holder → Prop where
  | inactive (idle : txn.status ≠ .active) :
      Ruled made holders requester txn mode .requesterInactive holders []
  | covered (active : txn.status = .active) (holds : Holds holders txn.id mode) :
      Ruled made holders requester txn mode .granted holders []
  | upgraded {holder : Holder} (active : txn.status = .active) (alone : holders = [holder])
      (own : holder.id = txn.id) (reads : holder.mode = .shared) (wanted : mode = .exclusive) :
      Ruled made holders requester txn mode .upgraded [{ holder with mode }] []
  | appended (active : txn.status = .active) (unheld : ∀ holder ∈ holders, holder.id ≠ txn.id)
      (clear : conflicting holders txn.id mode = []) :
      Ruled made holders requester txn mode .granted
        (holders ++ [{ handle := requester, id := txn.id, mode }]) []
  | wounded {victims : List Holder} (active : txn.status = .active)
      (uncovered : ¬ Holds holders txn.id mode) (some : victims ≠ [])
      (order : victims.Sublist (conflicting holders txn.id mode))
      (exact : ∀ rival ∈ conflicting holders txn.id mode, rival ∈ victims ↔ Wounds made txn rival) :
      Ruled made holders requester txn mode (.wounded (victims.map Holder.id)) holders victims
  | wait (active : txn.status = .active) (uncovered : ¬ Holds holders txn.id mode)
      (blocked : conflicting holders txn.id mode ≠ [])
      (none : ∀ rival ∈ conflicting holders txn.id mode, ¬ Wounds made txn rival) :
      Ruled made holders requester txn mode
        (.wait ((conflicting holders txn.id mode).map Holder.id)) holders []

/-- Without conflicting holders, a lock of the requester is upgraded or a new one is appended. -/
theorem ruled_of_clear (wellFormed : (table.entry object).WellFormed)
    (present : made[requester]? = some txn) (active : txn.status = .active)
    (uncovered : ¬ Holds (table.holders object) txn.id mode)
    (clear : conflicting (table.holders object) txn.id mode = []) :
    let attempt := table.acquire made object requester mode
    Ruled made (table.holders object) requester txn mode attempt.outcome
      (attempt.table.holders object) [] ∧ attempt.made = made := by
  intro attempt
  have short : (heldBy (table.holders object) txn.id).any (·.covers mode) = false :=
    Bool.eq_false_iff.mpr fun covered => uncovered ((any_covers_iff wellFormed).mp covered)
  have attempted : attempt = _ := acquire_of_clear present active short clear
  cases held : heldBy (table.holders object) txn.id with
  | none =>
      have unheld : ∀ holder ∈ table.holders object, holder.id ≠ txn.id := fun holder member same =>
        heldBy_eq_none.mp held (List.mem_map.mpr ⟨holder, member, same⟩)
      rw [held, Option.isSome_none, if_neg Bool.false_ne_true] at attempted
      rw [attempted]
      simp only [holders_put, if_true, LockEntry.holders_push]
      exact ⟨.appended active unheld clear, trivial⟩
  | some own_mode =>
      obtain ⟨holder, member, own, _⟩ := heldBy_eq_some held
      obtain ⟨reads, wanted⟩ := exclusive_of_uncovered member own uncovered
      have alone : table.holders object = [holder] := by
        subst wanted
        exact wellFormed.eq_singleton member (own.symm ▸ clear)
      rw [held, Option.isSome_some, if_pos rfl] at attempted
      rw [attempted]
      have raised : ((table.entry object).upgrade txn.id).holders = [{ holder with mode }] := by
        rw [LockEntry.holders_upgrade, ← LockTable.holders, alone, upgrade, List.map_singleton,
          if_pos own, wanted]
      simp only [holders_put, if_true, raised]
      exact ⟨.upgraded active alone own reads wanted, trivial⟩

/-- With conflicting holders, the request wounds those among them that satisfy `Wounds`, or waits. -/
theorem ruled_of_blocked (wellFormed : (table.entry object).WellFormed)
    (present : made[requester]? = some txn) (active : txn.status = .active)
    (uncovered : ¬ Holds (table.holders object) txn.id mode)
    (blocked : conflicting (table.holders object) txn.id mode ≠ []) :
    let attempt := table.acquire made object requester mode
    ∃ victims, Ruled made (table.holders object) requester txn mode attempt.outcome
        (attempt.table.holders object) victims ∧
      (∀ victim ∈ victims, Wounds made txn victim) ∧ attempt.made = wound made victims := by
  intro attempt
  have short : (heldBy (table.holders object) txn.id).any (·.covers mode) = false :=
    Bool.eq_false_iff.mpr fun covered => uncovered ((any_covers_iff wellFormed).mp covered)
  have attempted : attempt = _ := acquire_of_blocked present active short blocked
  let rivals := conflicting (table.holders object) txn.id mode
  let victims := rivals.filter (isVictim made txn.age)
  have exact (rival : Holder) (member : rival ∈ rivals) :
      rival ∈ victims ↔ Wounds made txn rival := by
    rw [List.mem_filter, isVictim_eq_true, and_iff_right member]
  refine ⟨victims, ?_, fun victim member => ?_, by rw [attempted]⟩
  · rw [attempted]
    simp only [holders_put_same]
    split
    · rename_i nobody
      rw [show victims = [] from nobody]
      refine .wait active uncovered blocked fun rival member wounds => ?_
      exact absurd ((exact rival member).mpr wounds) (by simp [show victims = [] from nobody])
    · rename_i somebody
      exact .wounded active uncovered somebody List.filter_sublist exact
  · exact (exact victim (List.mem_of_mem_filter member)).mp member

theorem acquire_ruled (wellFormed : (table.entry object).WellFormed)
    (present : made[requester]? = some txn) (mode : LockMode) :
    let attempt := table.acquire made object requester mode
    ∃ victims, Ruled made (table.holders object) requester txn mode attempt.outcome
        (attempt.table.holders object) victims ∧
      (∀ victim ∈ victims, Wounds made txn victim) ∧ attempt.made = wound made victims := by
  intro attempt
  by_cases active : txn.status = .active
  case neg =>
      have attempted : attempt = _ := acquire_of_inactive present active
      rw [attempted]
      simp only [holders_put_same]
      exact ⟨[], .inactive active, by simp, rfl⟩
  case pos =>
      by_cases holds : Holds (table.holders object) txn.id mode
      case pos =>
          have attempted : attempt = _ := acquire_of_covered present active
            ((any_covers_iff wellFormed).mpr holds)
          rw [attempted]
          simp only [holders_put_same]
          exact ⟨[], .covered active holds, by simp, rfl⟩
      case neg =>
          by_cases clear : conflicting (table.holders object) txn.id mode = []
          · obtain ⟨ruled, same⟩ := ruled_of_clear wellFormed present active holds clear
            exact ⟨[], ruled, by simp, same⟩
          · exact ruled_of_blocked wellFormed present active holds clear

end LockTable

/-- The decision rule for lock requests, after any sequence of operations. Each holder has the name
of the transaction with its handle. The outcome, the holders after the request and the victims
satisfy `Ruled`; the victims are aborted and all other transactions preserved. The entries of other
objects are preserved, and so is the table if the lock is already held. -/
theorem wound_wait_rule (made : Transactions) (operations : List LockTable.Operation)
    (object : ObjectId) (requester : Handle) (mode : LockMode) (txn : Transaction) :
    let scene := operations.foldl LockTable.operate { made, books := {} }
    let holders := scene.books.holders object
    let attempt := scene.books.acquire scene.made object requester mode
    scene.made[requester]? = some txn →
    (∀ holder ∈ holders, ∃ owner, scene.made[holder.handle]? = some owner ∧ owner.id = holder.id) ∧
    (∃ victims,
      LockTable.Ruled scene.made holders requester txn mode attempt.outcome
        (attempt.table.holders object) victims ∧
      ∀ handle, attempt.made[handle]? =
        if handle ∈ victims.map Holder.handle then
          scene.made[handle]?.map fun owner => { owner with status := .aborted }
        else scene.made[handle]?) ∧
    (LockTable.Holds holders txn.id mode → attempt.table = scene.books) ∧
    ∀ other ≠ object, attempt.table.entry other = scene.books.entry other := by
  intro scene holders attempt present
  have owned : LockTable.Owned scene := (LockTable.owned_empty made).run operations
  have wellFormed : (scene.books.entry object).WellFormed := by
    have start : ({ made, books := {} } : Scene LockTable).books.Represents ∅ := .empty
    exact (start.run operations).wellFormed object
  obtain ⟨victims, ruled, wounds, after⟩ := LockTable.acquire_ruled wellFormed present mode
  refine ⟨fun holder member => owned.exists_owner member, ⟨victims, ruled, fun handle => ?_⟩,
    fun holds => LockTable.acquire_table_of_holds wellFormed present holds,
    fun other different => LockTable.acquire_entry_other present different⟩
  rw [show attempt.made = _ from after]
  exact LockTable.getElem?_wound_of_wounds wounds handle

/-- A request to write by a reader of age 3, with three other readers. The reader of equal age and
the failed younger one are preserved; the partially committed reader without a timestamp is wounded. -/
theorem wound_wait_rule_readers :
    let made : Transactions := #[{ id := 1, timestamp := some 3 }, { id := 2, timestamp := some 3 },
      { id := 3, timestamp := some 9 }, { id := 4 }]
    let operations : List LockTable.Operation := [.acquire "x" 0 .shared, .acquire "x" 1 .shared,
      .acquire "x" 2 .shared, .acquire "x" 3 .shared, .touch 2 (.moveTo .failed),
      .touch 3 (.moveTo .partiallyCommitted)]
    let scene := operations.foldl LockTable.operate { made, books := {} }
    let attempt := scene.books.acquire scene.made "x" 0 .exclusive
    scene.made[0]? = some { id := 1, timestamp := some 3 } ∧
    (∃ victims, LockTable.Ruled scene.made (scene.books.holders "x") 0 { id := 1, timestamp := some 3 }
      .exclusive attempt.outcome (attempt.table.holders "x") victims) ∧
    attempt.outcome = .wounded [4] ∧
    attempt.made.toList.map Transaction.status = [.active, .active, .failed, .aborted] := by
  intro made operations scene attempt
  have present : scene.made[0]? = some { id := 1, timestamp := some 3 } := by decide
  obtain ⟨_, ⟨victims, ruled, _⟩, _⟩ := wound_wait_rule made operations "x" 0 .exclusive _ present
  exact ⟨present, ⟨victims, ruled⟩, by decide, by decide⟩

end Isolation
