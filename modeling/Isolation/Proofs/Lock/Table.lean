import Isolation.Lock.Table

/-!
The effect of a request on the holders of an object. A granted request weakens no lock and preserves
compatibility of the holders, and a refused request preserves the holders.
-/

namespace Isolation

namespace LockMode

theorem conflictsWith_comm (first second : LockMode) :
    first.conflictsWith second = second.conflictsWith first := by
  cases first <;> cases second <;> rfl

theorem conflictsWith_of_covers {strong weak other : LockMode} (covers : strong.covers weak = true)
    (conflict : weak.conflictsWith other = true) : strong.conflictsWith other = true := by
  revert covers conflict
  cases strong <;> cases weak <;> cases other <;> decide

theorem covers_refl (mode : LockMode) : mode.covers mode = true := by
  cases mode <;> rfl

theorem exclusive_covers (mode : LockMode) : LockMode.exclusive.covers mode = true := by
  cases mode <;> rfl

/-- If a held mode does not cover the wanted one, then the wanted mode is exclusive. -/
theorem exclusive_of_not_covers {held wanted : LockMode} (short : held.covers wanted = false) :
    wanted = .exclusive := by
  cases held <;> cases wanted <;> first | rfl | contradiction

theorem conflictsWith_exclusive (mode : LockMode) : mode.conflictsWith .exclusive = true := by
  cases mode <;> rfl

end LockMode

@[simp] theorem LockEntry.holders_release (entry : LockEntry) (id : TxnId) :
    (entry.release id).2.holders = entry.holders.filter (·.id ≠ id) := by
  simp only [LockEntry.release]
  split <;> rfl

@[simp] theorem LockEntry.holders_push (entry : LockEntry) (holder : Holder) :
    (entry.push holder).holders = entry.holders ++ [holder] := rfl

@[simp] theorem LockEntry.holders_upgrade (entry : LockEntry) (id : TxnId) :
    (entry.upgrade id).holders = LockTable.upgrade entry.holders id := rfl

namespace LockTable

variable {table : LockTable} {made : Transactions} {object : ObjectId} {requester : Handle}
  {mode : LockMode} {txn : Transaction} {holders : List Holder}

/-- The name holds a lock that covers the mode. -/
def Holds (holders : List Holder) (id : TxnId) (mode : LockMode) : Prop :=
  ∃ holder ∈ holders, holder.id = id ∧ holder.mode.covers mode = true

/-- Holders with different names have compatible modes. -/
def Compatible (holders : List Holder) : Prop :=
  ∀ first ∈ holders, ∀ second ∈ holders, first.id ≠ second.id →
    first.mode.conflictsWith second.mode = false

theorem entry_put (table : LockTable) (object other : ObjectId) (entry : LockEntry) :
    (table.put object entry).entry other =
      if object = other then entry else table.entry other := by
  simp only [LockTable.entry, put, Std.ExtTreeMap.getElem?_insert,
    Std.LawfulEqCmp.compare_eq_iff_eq]
  split <;> rfl

theorem holders_put (table : LockTable) (object other : ObjectId) (entry : LockEntry) :
    (table.put object entry).holders other =
      if object = other then entry.holders else table.holders other := by
  rw [LockTable.holders, entry_put]
  split <;> rfl

theorem holders_put_same (table : LockTable) (object other : ObjectId) :
    (table.put object (table.entry object)).holders other = table.holders other := by
  rw [holders_put]
  split
  · rename_i here
    rw [here]
    rfl
  · rfl

theorem entry_release (table : LockTable) (id : TxnId) (object : ObjectId) :
    (table.release id).entry object = ((table.entry object).release id).2 := by
  simp only [LockTable.entry, release, Std.ExtTreeMap.getElem?_map]
  cases table.entries[object]? <;> rfl

theorem holders_release (table : LockTable) (id : TxnId) (object : ObjectId) :
    (table.release id).holders object = (table.holders object).filter (·.id ≠ id) := by
  rw [LockTable.holders, entry_release]
  exact (table.entry object).holders_release id

theorem Compatible.filter (compatible : Compatible holders) (keep : Holder → Bool) :
    Compatible (holders.filter keep) :=
  fun first firstMember second secondMember =>
    compatible first (List.mem_filter.mp firstMember).1 second (List.mem_filter.mp secondMember).1

theorem Holds.filter_ne {id other : TxnId} (holds : Holds holders id mode) (different : id ≠ other) :
    Holds (holders.filter (·.id ≠ other)) id mode := by
  obtain ⟨holder, member, same, covers⟩ := holds
  refine ⟨holder, List.mem_filter.mpr ⟨member, ?_⟩, same, covers⟩
  rw [same]
  exact decide_eq_true different

theorem mem_conflicting {id : TxnId} {holder : Holder} :
    holder ∈ conflicting holders id mode ↔
      holder ∈ holders ∧ holder.id ≠ id ∧ holder.mode.conflictsWith mode = true := by
  simp [conflicting, List.mem_filter]

/-- The table after a request. A covered or refused request at most creates an empty entry;
otherwise the lock is upgraded in place or appended. -/
theorem acquire_cases (table : LockTable) (object : ObjectId) (mode : LockMode)
    (present : made[requester]? = some txn) :
    ((table.acquire made object requester mode).outcome.isGranted = false ∧
      (table.acquire made object requester mode).table =
        table.put object (table.entry object)) ∨
    ((table.acquire made object requester mode).outcome.isGranted = true ∧
      (table.acquire made object requester mode).made = made ∧
      ((heldBy (table.holders object) txn.id).any (·.covers mode) = true ∧
        (table.acquire made object requester mode).table =
          table.put object (table.entry object) ∨
      (heldBy (table.holders object) txn.id).any (·.covers mode) = false ∧
        conflicting (table.holders object) txn.id mode = [] ∧
        (table.acquire made object requester mode).table = table.put object
          (if (heldBy (table.holders object) txn.id).isSome then
            (table.entry object).upgrade txn.id
          else (table.entry object).push { handle := requester, id := txn.id, mode }))) := by
  simp only [acquire, present]
  split
  · exact .inl ⟨rfl, rfl⟩
  · split
    · rename_i covered
      exact .inr ⟨rfl, rfl, .inl ⟨covered, rfl⟩⟩
    · rename_i uncovered
      split
      · rename_i free
        have clear := List.isEmpty_iff.mp free
        split
        · exact .inr ⟨rfl, rfl, .inr ⟨Bool.eq_false_iff.mpr uncovered, clear, rfl⟩⟩
        · exact .inr ⟨rfl, rfl, .inr ⟨Bool.eq_false_iff.mpr uncovered, clear, rfl⟩⟩
      · split <;> exact .inl ⟨rfl, rfl⟩

theorem heldBy_eq_some {id : TxnId} {held : LockMode} (found : heldBy holders id = some held) :
    ∃ holder ∈ holders, holder.id = id ∧ holder.mode = held := by
  obtain ⟨holder, first, modeEq⟩ := Option.map_eq_some_iff.mp found
  exact ⟨holder, List.mem_of_find?_eq_some first,
    of_decide_eq_true (List.find?_some (p := fun holder : Holder => decide (holder.id = id)) first),
    modeEq⟩

/-- The relation between the holders before and after a granted request. -/
structure Granted (before after : List Holder) (id : TxnId) (mode : LockMode) : Prop where
  holds : Holds after id mode
  kept : ∀ {other : TxnId} {held : LockMode}, Holds before other held → Holds after other held
  compatible : Compatible before → Compatible after

theorem granted_upgrade {id : TxnId} {held : LockMode} (found : heldBy holders id = some held)
    (alone : conflicting holders id .exclusive = []) :
    Granted holders (upgrade holders id) id mode := by
  have others (holder : Holder) (member : holder ∈ holders) : holder.id = id := by
    apply Classical.byContradiction
    intro different
    have blocked : holder ∈ conflicting holders id .exclusive :=
      mem_conflicting.mpr ⟨member, different, LockMode.conflictsWith_exclusive _⟩
    rw [alone] at blocked
    contradiction
  have raised (holder : Holder) (member : holder ∈ holders) :
      { holder with mode := .exclusive } ∈ upgrade holders id :=
    List.mem_map.mpr ⟨holder, member, if_pos (others holder member)⟩
  constructor
  case holds =>
      obtain ⟨holder, member, same, _⟩ := heldBy_eq_some found
      exact ⟨_, raised holder member, same, LockMode.exclusive_covers mode⟩
  case kept =>
      intro other held given
      obtain ⟨holder, member, same, _⟩ := given
      exact ⟨_, raised holder member, same, LockMode.exclusive_covers held⟩
  case compatible =>
      intro _ first firstMember second secondMember different
      obtain ⟨firstOld, firstHeld, rfl⟩ := List.mem_map.mp firstMember
      obtain ⟨secondOld, secondHeld, rfl⟩ := List.mem_map.mp secondMember
      simp only [others firstOld firstHeld, others secondOld secondHeld, if_true] at different
      exact absurd rfl different

theorem granted_append {id : TxnId} {handle : Handle} (clear : conflicting holders id mode = []) :
    Granted holders (holders ++ [{ handle := handle, id, mode }]) id mode := by
  have tolerated (holder : Holder) (member : holder ∈ holders) (different : holder.id ≠ id) :
      holder.mode.conflictsWith mode = false := by
    apply Classical.byContradiction
    intro conflict
    have blocked : holder ∈ conflicting holders id mode :=
      mem_conflicting.mpr ⟨member, different, by simpa using conflict⟩
    rw [clear] at blocked
    contradiction
  constructor
  case holds =>
      have member := List.mem_append_right holders
        (List.mem_singleton_self ({ handle := handle, id, mode } : Holder))
      exact ⟨_, member, rfl, LockMode.covers_refl mode⟩
  case kept =>
      intro other held given
      obtain ⟨holder, member, same, covers⟩ := given
      exact ⟨holder, List.mem_append_left _ member, same, covers⟩
  case compatible =>
      intro compatible first firstMember second secondMember different
      rcases List.mem_append.mp firstMember with firstOld | firstNew <;>
        rcases List.mem_append.mp secondMember with secondOld | secondNew
      · exact compatible first firstOld second secondOld different
      · rw [List.mem_singleton] at secondNew
        subst secondNew
        exact tolerated first firstOld different
      · rw [List.mem_singleton] at firstNew
        subst firstNew
        rw [LockMode.conflictsWith_comm]
        exact tolerated second secondOld different.symm
      · rw [List.mem_singleton] at firstNew secondNew
        subst firstNew secondNew
        exact absurd rfl different

theorem acquire_granted (present : made[requester]? = some txn)
    (granted : (table.acquire made object requester mode).outcome.isGranted = true) :
    Granted (table.holders object)
      ((table.acquire made object requester mode).table.holders object) txn.id mode := by
  rcases acquire_cases table object mode present with
    ⟨refused, _⟩ | ⟨_, _, ⟨covered, left⟩ | ⟨uncovered, clear, left⟩⟩
  · rw [refused] at granted
    contradiction
  · rw [left, holders_put_same]
    cases found : heldBy (table.holders object) txn.id with
    | none => simp [found] at covered
    | some held =>
        obtain ⟨holder, member, same, modeEq⟩ := heldBy_eq_some found
        rw [found, Option.any_some, ← modeEq] at covered
        exact ⟨⟨holder, member, same, covered⟩, fun holds => holds, fun compatible => compatible⟩
  · rw [left, holders_put, if_pos rfl]
    cases found : heldBy (table.holders object) txn.id with
    | none => exact granted_append clear
    | some held =>
        rw [found, Option.any_some] at uncovered
        rw [LockMode.exclusive_of_not_covers uncovered] at clear
        exact granted_upgrade found clear

theorem acquire_other {other : ObjectId} (present : made[requester]? = some txn)
    (different : object ≠ other) :
    (table.acquire made object requester mode).table.holders other = table.holders other := by
  rcases acquire_cases table object mode present with
    ⟨_, left⟩ | ⟨_, _, ⟨_, left⟩ | ⟨_, _, left⟩⟩ <;>
    rw [left, holders_put, if_neg different]

theorem acquire_refused (present : made[requester]? = some txn)
    (refused : (table.acquire made object requester mode).outcome.isGranted = false)
    (other : ObjectId) :
    (table.acquire made object requester mode).table.holders other = table.holders other := by
  rcases acquire_cases table object mode present with
    ⟨_, left⟩ | ⟨granted, _⟩
  · rw [left, holders_put_same]
  · rw [granted] at refused
    contradiction

/-- A request of an active transaction is granted if it is covered or has no conflicting holders. -/
theorem acquire_isGranted (table : LockTable) (object : ObjectId) (mode : LockMode)
    (present : made[requester]? = some txn) (active : txn.isActive = true) :
    (table.acquire made object requester mode).outcome.isGranted =
      ((heldBy (table.holders object) txn.id).any (·.covers mode) ||
        (conflicting (table.holders object) txn.id mode).isEmpty) := by
  simp only [acquire, present, active, Bool.not_true, Bool.false_eq_true, if_false]
  cases covered : (heldBy (table.holders object) txn.id).any (·.covers mode) with
  | true => rfl
  | false =>
      cases clear : (conflicting (table.holders object) txn.id mode).isEmpty with
      | true =>
          simp only [Bool.false_eq_true, if_false, if_true]
          split <;> rfl
      | false =>
          simp only [Bool.false_eq_true, if_false]
          split <;> rfl

/-- A request changes the transactions only if the requester is active and the request is refused:
then it wounds the younger conflicting holders. -/
theorem acquire_made (table : LockTable) (object : ObjectId) (mode : LockMode)
    (present : made[requester]? = some txn) :
    (table.acquire made object requester mode).made =
      if txn.isActive ∧ (table.acquire made object requester mode).outcome.isGranted = false then
        wound made
          ((conflicting (table.holders object) txn.id mode).filter (isVictim made txn.age))
      else made := by
  cases active : txn.isActive with
  | false => simp [acquire, present, active]
  | true =>
      rw [acquire_isGranted table object mode present active]
      simp only [acquire, present, active, Bool.not_true, Bool.false_eq_true, if_false, true_and]
      cases covered : (heldBy (table.holders object) txn.id).any (·.covers mode) with
      | true => rfl
      | false =>
          cases clear : (conflicting (table.holders object) txn.id mode).isEmpty with
          | true =>
              simp only [Bool.false_eq_true, if_false, if_true, Bool.or_true, Bool.true_eq_false]
              split <;> rfl
          | false =>
              simp only [Bool.false_eq_true, if_false, Bool.or_self, if_true]
              split
              · rename_i none
                rw [List.isEmpty_iff.mp none]
                rfl
              · rfl

end LockTable

end Isolation
