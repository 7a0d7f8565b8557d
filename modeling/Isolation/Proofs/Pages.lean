import Isolation.Proofs.Admission
import Isolation.Proofs.Lock.Rule
import Isolation.Proofs.Locking
import Isolation.Proofs.Optimistic
import Isolation.Proofs.Ordering
import Isolation.Proofs.Permanence

/-!
The part of the books that concerns one object. Each discipline decides an access by the page of its
object and preserves all other pages. An allowed access preserves the transactions, is idempotent,
and commutes with allowed accesses to other objects.
-/

namespace Isolation

section Maps

variable {κ ν : Type} {cmp : κ → κ → Ordering} [Std.TransCmp cmp] [Std.LawfulEqCmp cmp]
  {map : Std.ExtTreeMap κ ν cmp} {first second : κ} {one other : ν}

theorem insert_swap (different : first ≠ second) :
    (map.insert first one).insert second other = (map.insert second other).insert first one := by
  refine Std.ExtTreeMap.ext_getElem? fun key => ?_
  simp only [Std.ExtTreeMap.getElem?_insert]
  by_cases here : cmp second key = .eq
  · have there : cmp first key ≠ .eq := fun same =>
      different ((Std.LawfulEqCmp.eq_of_compare same).trans (Std.LawfulEqCmp.eq_of_compare here).symm)
    rw [if_pos here, if_neg there, if_pos here]
  · rw [if_neg here, if_neg here]

theorem insert_insert : (map.insert first one).insert first other = map.insert first other := by
  refine Std.ExtTreeMap.ext_getElem? fun key => ?_
  simp only [Std.ExtTreeMap.getElem?_insert]
  split <;> rfl

end Maps

/-- The part of the books that concerns one object: its lock entry, its marks, or its occurrences in
the records of each transaction. -/
inductive Page where
  | lock (entry : Option LockEntry)
  | marks (marks : Option Marks)
  | recorded (accessed : TxnId → Action → Bool)

/-- Judging depends on the page of the object only, and changes no other page. -/
class Discipline.DecidesByPage (β : Type) [Discipline β] where
  page : β → ObjectId → Page
  judge_made {scene : Scene β} {handle : Handle} {txn : Transaction} {object : ObjectId}
      {action : Action} :
    (Discipline.judge scene handle txn object action).1.isAllowed = true →
    (Discipline.judge scene handle txn object action).2.made = scene.made
  judge_other (scene : Scene β) (handle : Handle) (txn : Transaction) {object other : ObjectId}
      (action : Action) : object ≠ other →
    page (Discipline.judge scene handle txn object action).2.books other = page scene.books other
  judge_congr (scene next : Scene β) (handle : Handle) (txn : Transaction) {object : ObjectId}
      (action : Action) : next.made = scene.made →
    page next.books object = page scene.books object →
    (Discipline.judge next handle txn object action).1 =
        (Discipline.judge scene handle txn object action).1 ∧
      (Discipline.judge next handle txn object action).2.made =
        (Discipline.judge scene handle txn object action).2.made ∧
      page (Discipline.judge next handle txn object action).2.books object =
        page (Discipline.judge scene handle txn object action).2.books object
  /-- An allowed access is idempotent. -/
  judge_again {scene : Scene β} {handle : Handle} {txn : Transaction} {object : ObjectId}
      {action : Action} :
    (Discipline.judge scene handle txn object action).1.isAllowed = true →
    let next := (Discipline.judge scene handle txn object action).2
    (Discipline.judge next handle txn object action).1.isAllowed = true ∧
      (Discipline.judge next handle txn object action).2 = next
  judge_swap {scene : Scene β} {handle : Handle} {txn : Transaction} {object other : ObjectId}
      {action : Action} : object ≠ other →
    (Discipline.judge scene handle txn object action).1.isAllowed = true →
    (Discipline.judge scene handle txn other action).1.isAllowed = true →
    (Discipline.judge (Discipline.judge scene handle txn object action).2
        handle txn other action).2.books =
      (Discipline.judge (Discipline.judge scene handle txn other action).2
        handle txn object action).2.books

namespace LockTable

variable {table : LockTable} {made : Transactions} {object other : ObjectId} {requester : Handle}
  {mode : LockMode} {txn : Transaction} {holders : List Holder} {id : TxnId}

/-- A lock request changes at most the entry of its object. -/
theorem acquire_table (table : LockTable) (made : Transactions) (object : ObjectId)
    (requester : Handle) (mode : LockMode) :
    (table.acquire made object requester mode).table =
      table.put object ((table.acquire made object requester mode).table.entry object) := by
  have put (entry : LockEntry) :
      table.put object entry = table.put object ((table.put object entry).entry object) := by
    rw [entry_put, if_pos rfl]
  simp only [acquire]
  split
  · exact put _
  · repeat' split
    all_goals exact put _

theorem entries_acquire (table : LockTable) (made : Transactions) (object other : ObjectId)
    (requester : Handle) (mode : LockMode) :
    (table.acquire made object requester mode).table.entries[other]? =
      if object = other then some ((table.acquire made object requester mode).table.entry object)
      else table.entries[other]? := by
  conv_lhs => rw [acquire_table]
  simp only [put, Std.ExtTreeMap.getElem?_insert, Std.LawfulEqCmp.compare_eq_iff_eq]

/-- The outcome of a lock request depends on the entry of its object only. -/
theorem acquire_congr {next : LockTable} (same : next.entry object = table.entry object)
    (made : Transactions) (requester : Handle) (mode : LockMode) :
    (next.acquire made object requester mode).outcome =
        (table.acquire made object requester mode).outcome ∧
      (next.acquire made object requester mode).made =
        (table.acquire made object requester mode).made ∧
      (next.acquire made object requester mode).table.entry object =
        (table.acquire made object requester mode).table.entry object := by
  have holders : next.holders object = table.holders object := congrArg LockEntry.holders same
  have put (entry : LockEntry) :
      (next.put object entry).entry object = (table.put object entry).entry object := by
    rw [entry_put, entry_put, if_pos rfl, if_pos rfl]
  simp only [acquire, same, holders]
  split
  · exact ⟨rfl, rfl, put _⟩
  · repeat' split
    all_goals exact ⟨rfl, rfl, put _⟩

theorem heldBy_append_of_none (free : heldBy holders id = none) (handle : Handle) :
    heldBy (holders ++ [{ handle := handle, id, mode }]) id = some mode := by
  rw [heldBy, Option.map_eq_none_iff] at free
  simp [heldBy, List.find?_append, free]

theorem heldBy_upgrade (held : (heldBy holders id).isSome = true) :
    heldBy (upgrade holders id) id = some .exclusive := by
  induction holders with
  | nil => contradiction
  | cons first rest ih =>
      by_cases own : first.id = id
      · simp [heldBy, upgrade, own]
      · simp only [heldBy, upgrade, List.map_cons, List.find?_cons, own, if_false, decide_false]
          at held ih ⊢
        exact ih held

/-- After a granted request, the requester holds a lock that covers the mode. -/
theorem covered_of_granted (present : made[requester]? = some txn)
    (granted : (table.acquire made object requester mode).outcome.isGranted = true) :
    (heldBy ((table.acquire made object requester mode).table.holders object) txn.id).any
      (·.covers mode) = true := by
  rcases acquire_cases table object mode present with
    ⟨refused, _⟩ | ⟨_, _, ⟨covered, left⟩ | ⟨_, _, left⟩⟩
  · rw [refused] at granted
    contradiction
  · rwa [left, holders_put_same]
  · rw [left, holders_put, if_pos rfl]
    split
    · rename_i held
      rw [LockEntry.holders_upgrade, ← LockTable.holders, heldBy_upgrade held, Option.any_some]
      exact LockMode.exclusive_covers mode
    · rename_i free
      rw [LockEntry.holders_push, ← LockTable.holders,
        heldBy_append_of_none (Option.not_isSome_iff_eq_none.mp free), Option.any_some]
      exact LockMode.covers_refl mode

/-- A granted lock request is idempotent. -/
theorem acquire_again (present : made[requester]? = some txn) (active : txn.status = .active)
    (granted : (table.acquire made object requester mode).outcome.isGranted = true) :
    let next := (table.acquire made object requester mode).table
    next.acquire made object requester mode = { outcome := .granted, table := next, made } := by
  intro next
  have entered : object ∈ next.entries := by
    rw [Std.ExtTreeMap.mem_iff_isSome_getElem?, entries_acquire, if_pos rfl]
    rfl
  rw [acquire_of_covered present active (covered_of_granted present granted), put_entry entered]

/-- Lock requests for distinct objects commute. -/
theorem acquire_swap (different : object ≠ other) (table : LockTable) (made : Transactions)
    (requester : Handle) (mode : LockMode) :
    ((table.acquire made object requester mode).table.acquire made other requester mode).table =
      ((table.acquire made other requester mode).table.acquire made object requester mode).table := by
  have after {first second : ObjectId} (apart : first ≠ second) :
      ((table.acquire made first requester mode).table.acquire made second requester mode).table =
        (table.put first ((table.acquire made first requester mode).table.entry first)).put second
          ((table.acquire made second requester mode).table.entry second) := by
    have kept : (table.acquire made first requester mode).table.entry second = table.entry second := by
      rw [acquire_table, entry_put, if_neg apart]
    rw [acquire_table, (acquire_congr kept made requester mode).2.2, ← acquire_table]
  rw [after different, after different.symm, put, put, put, put, insert_swap different]

/-- Lock requests are granted to active transactions only. -/
theorem exists_active_of_granted
    (granted : (table.acquire made object requester mode).outcome.isGranted = true) :
    ∃ txn, made[requester]? = some txn ∧ txn.status = .active := by
  cases present : made[requester]? with
  | none =>
      simp only [acquire, present, LockOutcome.isGranted] at granted
      contradiction
  | some txn =>
      refine ⟨txn, rfl, Classical.byContradiction fun inactive => ?_⟩
      rw [acquire_of_inactive present inactive] at granted
      contradiction

/-- A granted lock request changes no transaction. -/
theorem made_of_granted
    (granted : (table.acquire made object requester mode).outcome.isGranted = true) :
    (table.acquire made object requester mode).made = made := by
  obtain ⟨txn, present, _⟩ := exists_active_of_granted granted
  rw [acquire_made table object mode present, granted, if_neg (by simp)]

end LockTable

namespace Locking

variable {scene : Scene Locking} {handle : Handle} {txn : Transaction} {object : ObjectId}
  {action : Action}

theorem judge_of_active (active : txn.isActive = true) (scene : Scene Locking) (handle : Handle)
    (object : ObjectId) (action : Action) :
    let attempt := scene.books.table.acquire scene.made object handle (modeFor action)
    Discipline.judge scene handle txn object action =
      (verdict txn object (modeFor action) attempt.outcome,
        { made := attempt.made, books := { scene.books with table := attempt.table } }) :=
  if_pos active

/-- A locking engine allows only granted lock requests of active transactions. -/
theorem granted_of_allowed
    (allowed : (Discipline.judge scene handle txn object action).1.isAllowed = true) :
    txn.isActive = true ∧
      (scene.books.table.acquire scene.made object handle (modeFor action)).outcome.isGranted =
        true := by
  cases active : txn.isActive with
  | false =>
      rw [judge_inactive _ _ _ _ active] at allowed
      contradiction
  | true =>
      rw [judge_of_active active, verdict_isAllowed] at allowed
      exact ⟨rfl, allowed⟩

instance : Discipline.DecidesByPage Locking where
  page books object := .lock books.table.entries[object]?
  judge_made {scene handle txn object action} allowed := by
    obtain ⟨active, granted⟩ := granted_of_allowed allowed
    rw [judge_of_active active]
    exact LockTable.made_of_granted granted
  judge_other scene handle txn {object other} action different := by
    cases active : txn.isActive with
    | false => rw [judge_inactive _ _ _ _ active]
    | true =>
        rw [judge_of_active active]
        exact congrArg Page.lock ((LockTable.entries_acquire _ _ _ _ _ _).trans (if_neg different))
  judge_congr scene next handle txn {object} action made same := by
    cases active : txn.isActive with
    | false =>
        rw [judge_inactive _ _ _ _ active, judge_inactive _ _ _ _ active]
        exact ⟨rfl, made, same⟩
    | true =>
        have entry : next.books.table.entry object = scene.books.table.entry object :=
          congrArg (·.getD {}) (Page.lock.inj same)
        obtain ⟨outcome, made', left⟩ :=
          LockTable.acquire_congr entry scene.made handle (modeFor action)
        simp only [judge_of_active active, made, LockTable.entries_acquire, if_true]
        exact ⟨congrArg _ outcome, made', congrArg (Page.lock ∘ some) left⟩
  judge_again {scene handle txn object action} allowed := by
    obtain ⟨active, granted⟩ := granted_of_allowed allowed
    obtain ⟨owner, present, running⟩ := LockTable.exists_active_of_granted granted
    have again := LockTable.acquire_again present running granted
    simp only [judge_of_active active, LockTable.made_of_granted granted, again]
    exact ⟨rfl, trivial⟩
  judge_swap {scene handle txn object other action} different first second := by
    obtain ⟨active, granted⟩ := granted_of_allowed first
    have later := (granted_of_allowed second).2
    simp only [judge_of_active active, LockTable.made_of_granted granted,
      LockTable.made_of_granted later]
    rw [LockTable.acquire_swap different]

end Locking

namespace Marks

variable {marks : Marks} {action : Action} {timestamp : Timestamp}

theorem raise_raise (marks : Marks) (action : Action) (timestamp : Timestamp) :
    (marks.raise action timestamp).raise action timestamp = marks.raise action timestamp := by
  cases action <;> simp [raise]

theorem violation?_raise (inTime : marks.violation? action timestamp = none) :
    (marks.raise action timestamp).violation? action timestamp = none := by
  cases action with
  | read => exact inTime
  | write =>
      simp only [violation?, raise] at inTime ⊢
      grind

end Marks

namespace Watermarks

variable {scene : Scene Watermarks} {handle : Handle} {txn : Transaction} {object : ObjectId}
  {action : Action} {timestamp : Timestamp}

theorem marks_raise (watermarks : Watermarks) (object other : ObjectId) (action : Action)
    (timestamp : Timestamp) :
    (watermarks.raise object action timestamp).marks[other]? =
      if object = other then some ((watermarks.of object).raise action timestamp)
      else watermarks.marks[other]? := by
  simp only [raise, Std.ExtTreeMap.getElem?_insert, Std.LawfulEqCmp.compare_eq_iff_eq]

theorem raise_again (watermarks : Watermarks) (object : ObjectId) (action : Action)
    (timestamp : Timestamp) :
    (watermarks.raise object action timestamp).raise object action timestamp =
      watermarks.raise object action timestamp := by
  rw [raise, of_raise, if_pos rfl, Marks.raise_raise, raise, insert_insert]

theorem raise_swap {other : ObjectId} (different : object ≠ other) (watermarks : Watermarks)
    (action : Action) (timestamp : Timestamp) :
    (watermarks.raise object action timestamp).raise other action timestamp =
      (watermarks.raise other action timestamp).raise object action timestamp := by
  have both {first second : ObjectId} (apart : first ≠ second) :
      (watermarks.raise first action timestamp).raise second action timestamp =
        { marks := (watermarks.marks.insert first ((watermarks.of first).raise action timestamp)).insert
            second ((watermarks.of second).raise action timestamp) } := by
    rw [raise, of_raise, if_neg apart, raise]
  rw [both different, both different.symm, insert_swap different]

theorem judge_of_inTime (scene : Scene Watermarks) (handle : Handle) (standing : txn.isAborted = false)
    (stamped : txn.timestamp = some timestamp)
    (inTime : (scene.books.of object).violation? action timestamp = none) :
    Discipline.judge scene handle txn object action =
      (.allowed (.inOrder action timestamp),
        { scene with books := scene.books.raise object action timestamp }) := by
  simp only [judge_eq, judge, standing, Bool.false_eq_true, if_false, stamped, check, inTime]

/-- A timestamp engine allows only accesses without a violation, of stamped transactions that are
not aborted. -/
theorem inTime_of_allowed
    (allowed : (Discipline.judge scene handle txn object action).1.isAllowed = true) :
    txn.isAborted = false ∧ ∃ timestamp, txn.timestamp = some timestamp ∧
      (scene.books.of object).violation? action timestamp = none := by
  rw [judge_eq] at allowed
  unfold judge at allowed
  split at allowed
  · contradiction
  · rename_i standing
    refine ⟨Bool.eq_false_iff.mpr standing, ?_⟩
    split at allowed
    · contradiction
    · rename_i timestamp stamped
      refine ⟨timestamp, stamped, ?_⟩
      cases late : (scene.books.of object).violation? action timestamp with
      | none => rfl
      | some violation =>
          simp only [check, late] at allowed
          contradiction

instance : Discipline.DecidesByPage Watermarks where
  page books object := .marks books.marks[object]?
  judge_made {scene handle txn object action} allowed := by
    obtain ⟨standing, timestamp, stamped, inTime⟩ := inTime_of_allowed allowed
    rw [judge_of_inTime _ _ standing stamped inTime]
  judge_other scene handle txn {object other} action different := by
    simp only [judge_eq, judge, check]
    split
    · rfl
    · split
      · rfl
      · cases (scene.books.of object).violation? action _ with
        | none => exact congrArg Page.marks ((marks_raise _ _ _ _ _).trans (if_neg different))
        | some violation => rfl
  judge_congr scene next handle txn {object} action made same := by
    have marks : next.books.of object = scene.books.of object :=
      congrArg (·.getD {}) (Page.marks.inj same)
    simp only [judge_eq, judge, check, marks, made]
    split
    · exact ⟨rfl, made, same⟩
    · split
      · exact ⟨rfl, made, same⟩
      · cases (scene.books.of object).violation? action _ with
        | none =>
            dsimp only
            exact ⟨rfl, rfl, by rw [marks_raise, marks_raise, marks, if_pos rfl, if_pos rfl]⟩
        | some violation => exact ⟨rfl, rfl, same⟩
  judge_again {scene handle txn object action} allowed := by
    obtain ⟨standing, timestamp, stamped, inTime⟩ := inTime_of_allowed allowed
    have still : ((scene.books.raise object action timestamp).of object).violation? action timestamp =
        none := by
      rw [of_raise, if_pos rfl]
      exact Marks.violation?_raise inTime
    have again := judge_of_inTime { scene with books := scene.books.raise object action timestamp }
      handle standing stamped still
    rw [raise_again] at again
    simp only [judge_of_inTime scene handle standing stamped inTime, again]
    exact ⟨rfl, trivial⟩
  judge_swap {scene handle txn object other action} different first second := by
    obtain ⟨standing, timestamp, stamped, inTime⟩ := inTime_of_allowed first
    obtain ⟨_, again, same, inTimeToo⟩ := inTime_of_allowed second
    cases Option.some.inj (stamped.symm.trans same)
    rw [judge_of_inTime _ _ standing stamped inTime, judge_of_inTime _ _ standing stamped inTimeToo,
      judge_of_inTime _ _ standing stamped (by rwa [of_raise, if_neg different]),
      judge_of_inTime _ _ standing stamped (by rwa [of_raise, if_neg different.symm])]
    exact raise_swap different _ _ _

end Watermarks

namespace AccessRecord

theorem note_note (record : AccessRecord) (object : ObjectId) (action : Action) :
    (record.note object action).note object action = record.note object action := by
  have twice (objects : ObjectSet) : (objects.insert object).insert object = objects.insert object := by
    refine Std.ExtTreeSet.ext_mem fun other => ?_
    simp only [Std.ExtTreeSet.mem_insert]
    tauto
  cases action with
  | read => simp only [note, twice]
  | write => simp only [note, twice]

theorem note_swap (record : AccessRecord) (object other : ObjectId) (action : Action) :
    (record.note object action).note other action =
      (record.note other action).note object action := by
  have either (objects : ObjectSet) :
      (objects.insert object).insert other = (objects.insert other).insert object := by
    refine Std.ExtTreeSet.ext_mem fun object => ?_
    simp only [Std.ExtTreeSet.mem_insert]
    tauto
  cases action with
  | read => simp only [note, either]
  | write => simp only [note, either]

theorem contains_objects_note (record : AccessRecord) (object other : ObjectId) (action kind : Action) :
    ((record.note object action).objects kind).contains other =
      ((object = other ∧ action = kind) || (record.objects kind).contains other) := by
  rw [Bool.eq_iff_iff]
  cases action <;> cases kind <;> simp [note, objects]

end AccessRecord

namespace Ledger

variable {scene : Scene Ledger} {handle : Handle} {txn : Transaction} {ledger : Ledger} {id : TxnId}
  {object : ObjectId} {action : Action}

/-- The record of the transaction contains the object under the action. -/
def accessed (ledger : Ledger) (object : ObjectId) (id : TxnId) (action : Action) : Bool :=
  (ledger.record? id).any fun record => (record.objects action).contains object

theorem accessed_access (ledger : Ledger) (id other : TxnId) (object target : ObjectId)
    (action kind : Action) :
    (ledger.access id object action).accessed target other kind =
      ((id = other ∧ object = target ∧ action = kind) || ledger.accessed target other kind) := by
  rw [access_eq, accessed, record?_put]
  by_cases own : id = other
  · subst own
    have before : ((ledger.touch id).1.objects kind).contains target =
        ledger.accessed target id kind := by
      cases found : ledger.record? id with
      | some record => rw [touch_of_found found, accessed, found, Option.any_some]
      | none =>
          simp only [touch, found, accessed, Option.any_none]
          cases kind <;> exact Std.ExtTreeSet.contains_empty
    rw [if_pos rfl, Option.any_some, AccessRecord.contains_objects_note, before]
    simp only [true_and]
  · rw [if_neg own, (ledger.touch_frame id).2.2 other (Ne.symm own)]
    simp only [own, false_and, decide_false, Bool.false_or]
    rfl

theorem access_access (ledger : Ledger) (id : TxnId) (object other : ObjectId) (action : Action) :
    (ledger.access id object action).access id other action =
      (ledger.touch id).2.put id (((ledger.touch id).1.note object action).note other action) := by
  have found : (ledger.access id object action).record? id =
      some ((ledger.touch id).1.note object action) := by
    rw [access_eq, record?_put, if_pos rfl]
  rw [access_eq, touch_of_found found]
  rw [access_eq, put, put, insert_insert, put]

theorem judge_of_standing (standing : txn.isAborted = false) (scene : Scene Ledger) (handle : Handle)
    (object : ObjectId) (action : Action) :
    Discipline.judge scene handle txn object action =
      (.allowed (.recorded action),
        { scene with books := scene.books.access txn.id object action }) :=
  if_neg (Bool.eq_false_iff.mp standing)

theorem standing_of_allowed
    (allowed : (Discipline.judge scene handle txn object action).1.isAllowed = true) :
    txn.isAborted = false := by
  cases aborted : txn.isAborted with
  | false => rfl
  | true =>
      rw [Discipline.RefusesAborted.judge_aborted _ _ _ _ _ aborted] at allowed
      contradiction

instance : Discipline.DecidesByPage Ledger where
  page books object := .recorded (books.accessed object)
  judge_made {scene handle txn object action} allowed := by
    rw [judge_of_standing (standing_of_allowed allowed)]
  judge_other scene handle txn {object other} action different := by
    cases aborted : txn.isAborted with
    | true => rw [Discipline.RefusesAborted.judge_aborted _ _ _ _ _ aborted]
    | false =>
        rw [judge_of_standing aborted]
        refine congrArg Page.recorded (funext fun id => funext fun kind => ?_)
        simp [accessed_access, different]
  judge_congr scene next handle txn {object} action made same := by
    cases aborted : txn.isAborted with
    | true =>
        simp only [Discipline.RefusesAborted.judge_aborted _ _ _ _ _ aborted]
        exact ⟨trivial, made, same⟩
    | false =>
        have accessed := Page.recorded.inj same
        simp only [judge_of_standing aborted]
        refine ⟨trivial, made, congrArg Page.recorded (funext fun id => funext fun kind => ?_)⟩
        simp only [accessed_access, accessed]
  judge_again {scene handle txn object action} allowed := by
    have standing := standing_of_allowed allowed
    simp only [judge_of_standing standing, access_access, AccessRecord.note_note]
    exact ⟨rfl, rfl⟩
  judge_swap {scene handle txn object other action} different first second := by
    have standing := standing_of_allowed first
    simp only [judge_of_standing standing, access_access]
    rw [AccessRecord.note_swap]

end Ledger

end Isolation
