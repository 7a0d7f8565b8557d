import Mathlib.Algebra.BigOperators.Group.Finset.Piecewise
import Isolation.Discipline
import Isolation.Proofs.Lock.Table

/-!
Well-formedness of lock tables under arbitrary operations, for transactions of any status, with
shared names and without timestamps. The cached mode of an entry is determined by its holders, an
exclusive holder is the only holder, and no name occurs twice among the holders.
-/

namespace Isolation

namespace LockTable

variable {holders : List Holder}

theorem modeOf_eq_none : modeOf holders = none ↔ holders = [] := by
  cases holders <;> simp [modeOf]

theorem modeOf_eq_exclusive :
    modeOf holders = some .exclusive ↔ ∃ holder ∈ holders, holder.mode = .exclusive := by
  cases holders with
  | nil => simp [modeOf]
  | cons first rest =>
      have any := List.any_eq_true (l := first :: rest)
        (p := fun holder => decide (holder.mode = .exclusive))
      simp only [decide_eq_true_eq] at any
      rw [← any]
      simp only [modeOf]
      split <;> simp_all

theorem modeOf_eq_shared :
    modeOf holders = some .shared ↔ holders ≠ [] ∧ ∀ holder ∈ holders, holder.mode = .shared := by
  have other (mode : LockMode) : mode ≠ .exclusive ↔ mode = .shared := by cases mode <;> simp
  cases holders with
  | nil => simp [modeOf]
  | cons first rest => simp [modeOf, other]

theorem heldBy_eq_none {id : TxnId} : heldBy holders id = none ↔ id ∉ holders.map Holder.id := by
  simp [heldBy]

end LockTable

namespace LockEntry

open LockTable

variable {entry : LockEntry} {id : TxnId}

structure WellFormed (entry : LockEntry) : Prop where
  distinct : (entry.holders.map Holder.id).Nodup
  alone : ∀ holder ∈ entry.holders, holder.mode = .exclusive → entry.holders = [holder]
  settled : entry.mode = modeOf entry.holders

namespace WellFormed

theorem empty : ({} : LockEntry).WellFormed where
  distinct := .nil
  alone holder member := by contradiction
  settled := rfl

theorem mode_eq_exclusive (wellFormed : entry.WellFormed) :
    entry.mode = some .exclusive ↔ ∃ holder, entry.holders = [holder] ∧ holder.mode = .exclusive := by
  rw [wellFormed.settled, modeOf_eq_exclusive]
  constructor
  · intro given
    obtain ⟨holder, member, exclusive⟩ := given
    exact ⟨holder, wellFormed.alone holder member exclusive, exclusive⟩
  · intro given
    obtain ⟨holder, only, exclusive⟩ := given
    exact ⟨holder, by simp [only], exclusive⟩

/-- Appending a lock preserves well-formedness if the name holds none and no holder conflicts. -/
theorem push (wellFormed : entry.WellFormed) {handle : Handle} {mode : LockMode}
    (unheld : heldBy entry.holders id = none) (clear : conflicting entry.holders id mode = []) :
    (entry.push { handle, id, mode }).WellFormed := by
  have absent := heldBy_eq_none.mp unheld
  have tolerant (holder : Holder) (member : holder ∈ entry.holders) :
      holder.mode.conflictsWith mode = false := by
    have different : holder.id ≠ id := fun same =>
      absent (List.mem_map.mpr ⟨holder, member, same⟩)
    have free : holder ∉ conflicting entry.holders id mode := by simp [clear]
    simpa [mem_conflicting, member, different] using free
  constructor
  case distinct =>
      rw [holders_push, List.map_append]
      refine List.nodup_append'.mpr ⟨wellFormed.distinct, List.nodup_singleton _, ?_⟩
      simpa using absent
  case alone =>
      intro holder member exclusive
      rw [holders_push] at member ⊢
      rcases List.mem_append.mp member with old | new
      · have conflict := tolerant holder old
        simp [exclusive, LockMode.conflictsWith] at conflict
      · rw [List.mem_singleton] at new
        have nobody : entry.holders = [] := by
          apply List.eq_nil_iff_forall_not_mem.mpr
          intro other present
          have conflict := tolerant other present
          subst new
          simp [show mode = .exclusive from exclusive, LockMode.conflictsWith] at conflict
        rw [nobody, new, List.nil_append]
  case settled => rfl

/-- A holder without conflicting holders for the exclusive mode is the only holder. -/
theorem eq_singleton (wellFormed : entry.WellFormed) {holder : Holder}
    (member : holder ∈ entry.holders) (clear : conflicting entry.holders holder.id .exclusive = []) :
    entry.holders = [holder] := by
  have same (other : Holder) (present : other ∈ entry.holders) : other = holder := by
    have free : other ∉ conflicting entry.holders holder.id .exclusive := by simp [clear]
    have name : other.id = holder.id := by
      simpa [mem_conflicting, present, LockMode.conflictsWith_exclusive] using free
    exact List.inj_on_of_nodup_map wellFormed.distinct present member name
  apply List.perm_singleton.mp
  apply (List.perm_ext_iff_of_nodup wellFormed.distinct.of_map (List.nodup_singleton _)).mpr
  intro other
  rw [List.mem_singleton]
  exact ⟨same other, fun here => here ▸ member⟩

/-- An upgrade without conflicting holders preserves well-formedness. -/
theorem upgrade (wellFormed : entry.WellFormed) (held : (heldBy entry.holders id).isSome = true)
    (clear : conflicting entry.holders id .exclusive = []) : (entry.upgrade id).WellFormed := by
  obtain ⟨mode, found⟩ := Option.isSome_iff_exists.mp held
  obtain ⟨holder, member, own, _⟩ := heldBy_eq_some found
  have only : entry.holders = [holder] := wellFormed.eq_singleton member (own.symm ▸ clear)
  have raised : (entry.upgrade id).holders = [{ holder with mode := .exclusive }] := by
    rw [holders_upgrade, only, LockTable.upgrade, List.map_singleton, if_pos own]
  constructor
  case distinct =>
      rw [raised]
      exact List.nodup_singleton _
  case alone =>
      intro other present _
      rw [raised] at present ⊢
      rw [List.mem_singleton.mp present]
  case settled =>
      rw [raised]
      rfl

theorem release (wellFormed : entry.WellFormed) (id : TxnId) : (entry.release id).2.WellFormed := by
  have fewer : (entry.holders.filter (·.id ≠ id)).Sublist entry.holders := List.filter_sublist
  constructor
  case distinct =>
      rw [holders_release]
      exact wellFormed.distinct.sublist (fewer.map Holder.id)
  case alone =>
      intro holder member exclusive
      rw [holders_release] at member ⊢
      have only := wellFormed.alone holder (fewer.subset member) exclusive
      rw [only] at fewer member ⊢
      exact (List.sublist_singleton.mp fewer).resolve_left (List.ne_nil_of_mem member)
  case settled =>
      simp only [LockEntry.release]
      split
      · rfl
      · -- Nothing was dropped, so the mode is that of the same holders.
        rename_i none
        have whole := fewer.eq_of_length_le (by omega)
        rw [whole]
        exact wellFormed.settled

/-- Releasing a name removes at most one lock of an entry. -/
theorem released (wellFormed : entry.WellFormed) (id : TxnId) :
    (entry.release id).1 = if id ∈ entry.holders.map Holder.id then 1 else 0 := by
  have split := List.length_eq_countP_add_countP (fun holder : Holder => holder.id ≠ id)
    (l := entry.holders)
  have count := wellFormed.distinct.count (a := id)
  rw [List.count, List.countP_map] at count
  rw [← count]
  simp only [LockEntry.release, ← List.countP_eq_length_filter, split]
  simp only [Nat.add_sub_cancel_left, Function.comp_def, ne_eq, decide_not, Bool.not_eq_true',
    decide_eq_false_iff_not, not_not]
  rfl

end WellFormed

end LockEntry

namespace LockTable

variable {table : LockTable} {objects : Finset ObjectId}

/-- All entries are well-formed, and the objects with an entry are the given ones. -/
structure Represents (table : LockTable) (objects : Finset ObjectId) : Prop where
  wellFormed : ∀ object, (table.entry object).WellFormed
  entered : ∀ object, object ∈ table.entries ↔ object ∈ objects

namespace Represents

theorem empty : Represents {} ∅ where
  wellFormed _ := .empty
  entered object := by simp

theorem put (represents : table.Represents objects) (object : ObjectId) {entry : LockEntry}
    (wellFormed : entry.WellFormed) : (table.put object entry).Represents (insert object objects) where
  wellFormed other := by
    rw [entry_put]
    split
    · exact wellFormed
    · exact represents.wellFormed other
  entered other := by
    simp only [LockTable.put, Std.ExtTreeMap.mem_insert, Std.LawfulEqCmp.compare_eq_iff_eq,
      Finset.mem_insert, represents.entered]
    rw [eq_comm]

theorem acquire (represents : table.Represents objects) (made : Transactions) (object : ObjectId)
    (requester : Handle) (mode : LockMode) :
    (table.acquire made object requester mode).table.Represents (insert object objects) := by
  have before := represents.wellFormed object
  cases present : made[requester]? with
  | none =>
      simp only [LockTable.acquire, present]
      exact represents.put object before
  | some txn =>
      rcases acquire_cases table object mode present with
        ⟨_, left⟩ | ⟨_, _, ⟨_, left⟩ | ⟨uncovered, clear, left⟩⟩
      · rw [left]
        exact represents.put object before
      · rw [left]
        exact represents.put object before
      · rw [left]
        apply represents.put object
        cases found : heldBy (table.holders object) txn.id with
        | none => exact before.push found clear
        | some held =>
            rw [found, Option.any_some] at uncovered
            rw [LockMode.exclusive_of_not_covers uncovered] at clear
            exact before.upgrade (Option.isSome_of_eq_some found) clear

theorem release (represents : table.Represents objects) (id : TxnId) :
    (table.release id).Represents objects where
  wellFormed object := by
    rw [entry_release]
    exact (represents.wellFormed object).release id
  entered object := by
    rw [LockTable.release, Std.ExtTreeMap.mem_map]
    exact represents.entered object

theorem keys (represents : table.Represents objects) : table.entries.keys.toFinset = objects := by
  ext object
  rw [List.mem_toFinset, Std.ExtTreeMap.mem_keys, represents.entered]

theorem size (represents : table.Represents objects) : table.size = objects.card := by
  rw [← represents.keys, List.toFinset_card_of_nodup Std.ExtTreeMap.nodup_keys]
  exact Std.ExtTreeMap.length_keys.symm

theorem held (represents : table.Represents objects) (id : TxnId) :
    table.held id =
      (objects.filter fun object => id ∈ (table.holders object).map Holder.id).card := by
  have entries : (table.entries.toList.map fun place => (place.2.release id).1) =
      table.entries.keys.map fun object => ((table.entry object).release id).1 := by
    rw [← Std.ExtTreeMap.map_fst_toList_eq_keys, List.map_map]
    refine List.map_congr_left fun place member => ?_
    rw [Prod.eta place |>.symm, Std.ExtTreeMap.mem_toList_iff_getElem?_eq_some] at member
    rw [Function.comp, LockTable.entry, member, Option.getD_some]
  have count : table.held id =
      (table.entries.toList.map fun place => (place.2.release id).1).sum := by
    rw [List.sum_eq_foldl, List.foldl_map]
    rfl
  rw [count, entries, ← List.sum_toFinset _ Std.ExtTreeMap.nodup_keys, represents.keys,
    Finset.card_filter]
  exact Finset.sum_congr rfl fun object _ => (represents.wellFormed object).released id

end Represents

/-- The operations on a lock table and its transactions: lock requests by any handle, releases of
any name, and operations on a transaction through its handle. -/
inductive Operation where
  | acquire (object : ObjectId) (requester : Handle) (mode : LockMode)
  | release (id : TxnId)
  | touch (handle : Handle) (touch : Transaction.Touch)

def operate (scene : Scene LockTable) : Operation → Scene LockTable
  | .acquire object requester mode =>
      let attempt := scene.books.acquire scene.made object requester mode
      { made := attempt.made, books := attempt.table }
  | .release id => { scene with books := scene.books.release id }
  | .touch handle touch =>
      match scene.made[handle]? with
      | none => scene
      | some txn =>
          match txn.touch touch with
          | .error _ => scene
          | .ok txn => { scene with made := scene.made.setIfInBounds handle txn }

def Operation.object? : Operation → Option ObjectId
  | acquire object _ _ => some object
  | release _ | touch _ _ => none

/-- The objects of the lock requests. -/
def asked (operations : List Operation) : Finset ObjectId :=
  (operations.filterMap Operation.object?).toFinset

theorem asked_cons (operation : Operation) (rest : List Operation) :
    asked (operation :: rest) = asked [operation] ∪ asked rest := by
  rw [asked, ← List.singleton_append, List.filterMap_append, List.toFinset_append]
  rfl

theorem Represents.operate {scene : Scene LockTable} (represents : scene.books.Represents objects)
    (operation : Operation) :
    (LockTable.operate scene operation).books.Represents (objects ∪ asked [operation]) := by
  cases operation with
  | acquire object requester mode =>
      have alone : asked [.acquire object requester mode] = {object} := rfl
      rw [alone, Finset.union_comm, ← Finset.insert_eq]
      exact represents.acquire scene.made object requester mode
  | release id =>
      have nothing : asked [.release id] = ∅ := rfl
      rw [nothing, Finset.union_empty]
      exact represents.release id
  | touch handle touch =>
      have nothing : asked [.touch handle touch] = ∅ := rfl
      have same : (LockTable.operate scene (.touch handle touch)).books = scene.books := by
        simp only [LockTable.operate]
        split
        · rfl
        · split <;> rfl
      rw [nothing, Finset.union_empty, same]
      exact represents

theorem Represents.run {scene : Scene LockTable} (represents : scene.books.Represents objects)
    (operations : List Operation) :
    (operations.foldl LockTable.operate scene).books.Represents (objects ∪ asked operations) := by
  induction operations generalizing scene objects with
  | nil => simpa [asked] using represents
  | cons operation rest ih =>
      rw [List.foldl_cons, asked_cons, ← Finset.union_assoc]
      exact ih (represents.operate operation)

/-- The lock table after any sequence of operations. No name holds an object twice. The mode of an
object is absent if there are no holders, exclusive if its only holder is, and shared if it has
holders and all of them are. The size is the number of objects requested, and a release removes one
lock for each object that the name holds, preserving all other holders in order. -/
theorem lock_table_represents (made : Transactions) (operations : List Operation) :
    let table := (operations.foldl operate { made, books := {} }).books
    (∀ object, ((table.holders object).map Holder.id).Nodup ∧
      (table.mode? object = none ↔ table.holders object = []) ∧
      (table.mode? object = some .exclusive ↔
        ∃ holder, table.holders object = [holder] ∧ holder.mode = .exclusive) ∧
      (table.mode? object = some .shared ↔
        table.holders object ≠ [] ∧ ∀ holder ∈ table.holders object, holder.mode = .shared)) ∧
    table.size = (asked operations).card ∧
    ∀ id, table.held id =
        ((asked operations).filter fun object => id ∈ (table.holders object).map Holder.id).card ∧
      ∀ object, (table.release id).holders object = (table.holders object).filter (·.id ≠ id) := by
  intro table
  have represents : table.Represents (asked operations) := by
    have start : ({ made, books := {} } : Scene LockTable).books.Represents ∅ := .empty
    simpa using start.run operations
  refine ⟨fun object => ?_, represents.size, fun id =>
    ⟨represents.held id, fun object => holders_release table id object⟩⟩
  have entry := represents.wellFormed object
  refine ⟨entry.distinct, ?_, entry.mode_eq_exclusive, ?_⟩
  · rw [mode?, entry.settled]
    exact modeOf_eq_none
  · rw [mode?, entry.settled]
    exact modeOf_eq_shared

/-- Two transactions of the same name share a lock, which one release removes. -/
example :
    let scene : Scene LockTable := { made := #[{ id := 7 }, { id := 7 }, { id := 8 }], books := {} }
    let table := ([.acquire "x" 0 .exclusive, .acquire "x" 1 .shared, .acquire "x" 2 .shared].foldl
      operate scene).books
    table.mode? "x" = some .exclusive ∧ (table.holders "x").map Holder.id = [7] ∧
      table.held 7 = 1 ∧ (table.release 7).mode? "x" = none := by
  decide

end LockTable

end Isolation
