import Isolation.Proofs.Shift

/-!
Lock requests commute with translations of names and handles. Holders are identified by name and
compared by age, and a translation preserves both equality of names and the order of ages.
-/

namespace Isolation

variable {n : Nat}

def Holder.shift (n : Nat) (holder : Holder) : Holder :=
  { holder with handle := holder.handle + n, id := holder.id + n }

def LockOutcome.shift (n : Nat) : LockOutcome → LockOutcome
  | .wounded victims => .wounded (victims.map (· + n))
  | .wait blockers => .wait (blockers.map (· + n))
  | outcome => outcome

namespace LockTable

def Shifted (n : Nat) (old new : LockTable) : Prop :=
  ∀ object, old.holders object = (new.holders object).map (Holder.shift n)

theorem heldBy_shift (holders : List Holder) (id : TxnId) :
    heldBy (holders.map (Holder.shift n)) (id + n) = heldBy holders id := by
  simp only [heldBy, List.find?_map, Option.map_map, Function.comp_def, Holder.shift,
    Nat.add_right_cancel_iff]

theorem conflicting_shift (holders : List Holder) (id : TxnId) (mode : LockMode) :
    conflicting (holders.map (Holder.shift n)) (id + n) mode =
      (conflicting holders id mode).map (Holder.shift n) := by
  simp only [conflicting, List.filter_map, Function.comp_def, Holder.shift, ne_eq,
    Nat.add_right_cancel_iff]

theorem upgrade_shift (holders : List Holder) (id : TxnId) :
    upgrade (holders.map (Holder.shift n)) (id + n) = (upgrade holders id).map (Holder.shift n) := by
  simp only [upgrade, List.map_map]
  refine List.map_congr_left fun holder _ => ?_
  by_cases own : holder.id = id
  · simp [Holder.shift, own]
  · simp [Holder.shift, own, Nat.add_right_cancel_iff]

theorem map_id_shift (holders : List Holder) :
    (holders.map (Holder.shift n)).map Holder.id = (holders.map Holder.id).map (· + n) := by
  rw [List.map_map, List.map_map]
  rfl

section

variable {older newer : Transactions} (made : Transactions.Shifted n older newer)
include made

theorem isVictim_shift
    (stamped : ∀ (handle : Handle) (txn : Transaction), newer[handle]? = some txn →
      txn.timestamp.isSome = true) (age : Timestamp) (holder : Holder) :
    isVictim older (age + n) (holder.shift n) = isVictim newer age holder := by
  simp only [isVictim, Holder.shift, made holder.handle]
  cases found : newer[holder.handle]? with
  | none => rfl
  | some txn =>
      obtain ⟨timestamp, given⟩ := Option.isSome_iff_exists.mp (stamped holder.handle txn found)
      simp only [Option.map_some, Option.any_some, Transaction.age_shift given,
        Nat.add_lt_add_iff_right]
      rfl

theorem wound_shift (victims : List Holder) :
    Transactions.Shifted n (wound older (victims.map (Holder.shift n))) (wound newer victims) := by
  unfold wound
  induction victims generalizing older newer with
  | nil => exact made
  | cons victim rest ih =>
      exact ih (made.modify victim.handle Transaction.forceAbort_shift)

end

namespace Shifted

variable {old new : LockTable}

theorem put (shifted : Shifted n old new) (object : ObjectId) {older newer : LockEntry}
    (entries : older.holders = newer.holders.map (Holder.shift n)) :
    Shifted n (old.put object older) (new.put object newer) := by
  intro other
  rw [holders_put, holders_put]
  split
  · exact entries
  · exact shifted other

theorem release (shifted : Shifted n old new) (id : TxnId) :
    Shifted n (old.release (id + n)) (new.release id) := by
  intro object
  simp only [holders_release, shifted object, List.filter_map, Function.comp_def, Holder.shift, ne_eq,
    Nat.add_right_cancel_iff]

theorem acquire (shifted : Shifted n old new) {older newer : Transactions}
    (made : Transactions.Shifted n older newer)
    (stamped : ∀ (handle : Handle) (txn : Transaction), newer[handle]? = some txn →
      txn.timestamp.isSome = true)
    (object : ObjectId) (requester : Handle) (mode : LockMode) :
    let ahead := old.acquire older object (requester + n) mode
    let behind := new.acquire newer object requester mode
    ahead.outcome = behind.outcome.shift n ∧ Shifted n ahead.table behind.table ∧
      Transactions.Shifted n ahead.made behind.made := by
  have kept := shifted.put object (shifted object)
  simp only [LockTable.acquire, made requester, shifted object]
  cases found : newer[requester]? with
  | none => exact ⟨rfl, kept, made⟩
  | some txn =>
      obtain ⟨timestamp, given⟩ := Option.isSome_iff_exists.mp (stamped requester txn found)
      have name : (txn.shift n).id = txn.id + n := rfl
      have victims : ((conflicting (new.holders object) txn.id mode).map (Holder.shift n)).filter
            (isVictim older (txn.shift n).age) =
          ((conflicting (new.holders object) txn.id mode).filter
            (isVictim newer txn.age)).map (Holder.shift n) := by
        rw [List.filter_map, Transaction.age_shift given]
        exact congrArg (List.map _)
          (List.filter_congr fun holder _ => isVictim_shift made stamped txn.age holder)
      simp only [Option.map_some, Transaction.isActive_shift, name, heldBy_shift, conflicting_shift,
        List.isEmpty_map, victims, map_id_shift]
      -- From here on both requests take the same branches.
      split
      · exact ⟨rfl, kept, made⟩
      · split
        · exact ⟨rfl, kept, made⟩
        · split
          · split
            · refine ⟨rfl, shifted.put object ?_, made⟩
              rw [LockEntry.holders_upgrade, LockEntry.holders_upgrade, ← upgrade_shift]
              exact congrArg (upgrade · (txn.id + n)) (shifted object)
            · refine ⟨rfl, shifted.put object ?_, made⟩
              rw [LockEntry.holders_push, LockEntry.holders_push, List.map_append]
              exact congrArg (· ++ _) (shifted object)
          · split
            · exact ⟨rfl, kept, made⟩
            · exact ⟨rfl, kept, wound_shift made _⟩

end Shifted

end LockTable

end Isolation
