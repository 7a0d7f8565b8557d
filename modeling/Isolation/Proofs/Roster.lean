import Isolation.Lock.Table
import Isolation.Proofs.Course

/-!
Identities of transactions, which no operation of an engine changes, and lookup of live transactions
by name.
-/

namespace Isolation

namespace Transaction

/-- The name and the timestamp of a transaction. -/
def identity (txn : Transaction) : TxnId × Option Timestamp :=
  (txn.id, txn.timestamp)

@[simp] theorem forceAbort_identity (txn : Transaction) :
    txn.forceAbort.identity = txn.identity := by
  rw [forceAbort_eq]
  rfl

@[simp] theorem append_identity (txn : Transaction) (row : Row) :
    (txn.append row).identity = txn.identity := rfl

theorem moveTo_identity {txn next : Transaction} {target : Status}
    (moved : txn.moveTo target = .ok next) : next.identity = txn.identity := by
  unfold moveTo at moved
  split at moved
  · cases moved
    rfl
  · contradiction

theorem id_of_touched {txn left : Transaction} {touch : Transaction.Touch}
    (touched : txn.touch touch = .ok left) : left.id = txn.id := by
  cases touch with
  | moveTo target => exact congrArg Prod.fst (moveTo_identity touched)
  | forceAbort =>
      cases touched
      exact congrArg Prod.fst txn.forceAbort_identity
  | append row =>
      cases touched
      rfl
  | assign timestamp =>
      simp only [Transaction.touch, assign] at touched
      split at touched
      · contradiction
      · cases touched
        rfl

end Transaction

namespace Transactions

def identities (made : Transactions) : List (TxnId × Option Timestamp) :=
  made.toList.map Transaction.identity

theorem identities_getElem? (made : Transactions) (handle : Handle) :
    made.identities[handle]? = made[handle]?.map Transaction.identity := by
  simp [identities]

@[simp] theorem identities_push (made : Transactions) (txn : Transaction) :
    Transactions.identities (made.push txn) = made.identities ++ [txn.identity] := by
  simp [identities]

theorem identities_set {made : Transactions} {handle : Handle} {txn next : Transaction}
    (found : made[handle]? = some txn) (same : next.identity = txn.identity) :
    Transactions.identities (made.setIfInBounds handle next) = made.identities := by
  apply List.ext_getElem?
  intro index
  simp only [identities_getElem?, Array.getElem?_setIfInBounds]
  by_cases here : handle = index
  · subst here
    have inBounds : handle < made.size := (Array.getElem?_eq_some_iff.mp found).1
    simp only [if_true, if_pos inBounds, found, Option.map_some, same]
  · rw [if_neg here]

theorem identities_modify (made : Transactions) (handle : Handle) {change : Transaction → Transaction}
    (same : ∀ txn, (change txn).identity = txn.identity) :
    Transactions.identities (made.modify handle change) = made.identities := by
  apply List.ext_getElem?
  intro index
  simp only [identities_getElem?, Array.getElem?_modify]
  by_cases here : handle = index
  · simp only [if_pos here, Option.map_map]
    congr 1
    exact funext same
  · rw [if_neg here]

theorem identities_wound (made : Transactions) (victims : List Holder) :
    Transactions.identities (LockTable.wound made victims) = made.identities := by
  unfold LockTable.wound
  induction victims generalizing made with
  | nil => rfl
  | cons victim rest ih =>
      rw [List.foldl_cons, ih]
      exact identities_modify made victim.handle Transaction.forceAbort_identity

end Transactions

namespace Roster

theorem find?_eq_some {roster : Roster} {id : TxnId} {handle : Handle} {txn : Transaction} :
    roster.find? id = some (handle, txn) ↔
      roster.live[id]? = some handle ∧ roster.made[handle]? = some txn := by
  unfold find?
  cases seat : roster.live[id]? with
  | none => simp
  | some seated =>
      cases found : roster.made[seated]? with
      | none =>
          simp only [Option.bind_eq_bind, Option.bind_some, found, Option.bind_none, reduceCtorEq,
            false_iff, not_and, Option.some.injEq]
          intro same
          subst same
          simp [found]
      | some present =>
          simp only [Option.bind_eq_bind, Option.bind_some, found, Option.pure_def,
            Option.some.injEq, Prod.mk.injEq]
          constructor
          · intro given
            obtain ⟨rfl, rfl⟩ := given
            exact ⟨rfl, found⟩
          · intro given
            obtain ⟨rfl, again⟩ := given
            exact ⟨rfl, Option.some.inj (found.symm.trans again)⟩

theorem mem_live_of_find? {roster : Roster} {id : TxnId} {handle : Handle} {txn : Transaction}
    (found : roster.find? id = some (handle, txn)) : id ∈ roster.live := by
  rw [Std.ExtTreeMap.mem_iff_isSome_getElem?, (find?_eq_some.mp found).1]
  rfl

theorem mem_live_remove {roster : Roster} {id other : TxnId} :
    other ∈ (roster.remove id).live ↔ other ≠ id ∧ other ∈ roster.live := by
  simp only [remove, Std.ExtTreeMap.mem_erase, Std.compare_ne_eq_iff_ne]
  rw [ne_comm]

theorem mem_ids {roster : Roster} {id : TxnId} : id ∈ roster.ids ↔ id ∈ roster.live :=
  Std.ExtTreeMap.mem_keys

end Roster

end Isolation
