import Isolation.Proofs.Roster

/-!
Assignment of timestamps under arbitrary handle operations. A nonzero timestamp is assigned at most
once and is preserved by every later operation. Zero encodes the absence of a timestamp, so
assigning zero succeeds repeatedly.
-/

namespace Isolation

namespace Transaction

variable {txn left : Transaction} {touches : List Touch} {timestamp current : Timestamp}

/-- The transaction after an operation, whether it succeeds or fails. -/
def touched (txn : Transaction) (touch : Touch) : Transaction :=
  (txn.touch touch).toOption.getD txn

/-- The timestamp of a successful assignment. -/
def assigns? (txn : Transaction) : Touch → Option Timestamp
  | .assign timestamp => if (txn.assign timestamp).isOk then some timestamp else none
  | .moveTo _ | .forceAbort | .append _ => none

/-- The timestamps of the successful assignments, in order. -/
def assigned (txn : Transaction) : List Touch → List Timestamp
  | [] => []
  | touch :: rest => (txn.assigns? touch).toList ++ (txn.touched touch).assigned rest

/-- Only assignments change the timestamp. -/
theorem timestamp_touched_of_other {touch : Touch} (other : ∀ timestamp, touch ≠ .assign timestamp) :
    (txn.touched touch).timestamp = txn.timestamp := by
  cases touch with
  | assign timestamp => exact absurd rfl (other timestamp)
  | append row => rfl
  | forceAbort => exact congrArg Prod.snd txn.forceAbort_identity
  | moveTo target =>
      simp only [touched, touch, moveTo]
      split <;> rfl

theorem id_touched (txn : Transaction) (touch : Touch) : (txn.touched touch).id = txn.id := by
  cases outcome : txn.touch touch with
  | error reason => rw [touched, outcome, Except.toOption, Option.getD_none]
  | ok left =>
      rw [touched, outcome, Except.toOption, Option.getD_some]
      exact id_of_touched outcome

theorem id_foldl_touched (txn : Transaction) (touches : List Touch) :
    (touches.foldl touched txn).id = txn.id := by
  induction touches generalizing txn with
  | nil => rfl
  | cons touch rest ih => exact (ih (txn.touched touch)).trans (txn.id_touched touch)

theorem assign_of_stamped (stamped : txn.timestamp = some current) (timestamp : Timestamp) :
    txn.assign timestamp = .error (.stamped txn.id current) := by
  simp only [assign, stamped]

theorem assign_of_unstamped (unstamped : txn.timestamp = none) (timestamp : Timestamp) :
    txn.assign timestamp =
      .ok (if timestamp = 0 then txn else { txn with timestamp := some timestamp }) := by
  obtain ⟨id, status, _, log⟩ := txn
  cases unstamped
  simp only [assign]
  split <;> rfl

/-- With a timestamp assigned, every operation preserves it and every assignment fails. -/
theorem touched_of_stamped (stamped : txn.timestamp = some current) (touch : Touch) :
    (txn.touched touch).timestamp = some current ∧ txn.assigns? touch = none := by
  cases touch with
  | assign timestamp =>
      simp only [touched, Transaction.touch, assigns?, assign_of_stamped stamped]
      exact ⟨stamped, rfl⟩
  | moveTo target | forceAbort | append row =>
      exact ⟨(timestamp_touched_of_other (by simp)).trans stamped, rfl⟩

theorem foldl_touched_of_stamped (stamped : txn.timestamp = some current) (touches : List Touch) :
    (touches.foldl touched txn).timestamp = some current ∧ txn.assigned touches = [] := by
  induction touches generalizing txn with
  | nil => exact ⟨stamped, rfl⟩
  | cons touch rest ih =>
      obtain ⟨stays, refused⟩ := touched_of_stamped stamped touch
      obtain ⟨still, none⟩ := ih stays
      exact ⟨still, by rw [assigned, refused, none, Option.toList_none, List.append_nil]⟩

/-- The successful assignments are a sequence of zeros, followed by the timestamp of the final
transaction if it has one. -/
theorem assigned_eq (unstamped : txn.timestamp = none) (touches : List Touch) :
    ∃ zeros, txn.assigned touches =
      List.replicate zeros 0 ++ (touches.foldl touched txn).timestamp.toList ∧
        (touches.foldl touched txn).timestamp ≠ some 0 := by
  induction touches generalizing txn with
  | nil => exact ⟨0, by simp [assigned, unstamped], by simp [unstamped]⟩
  | cons touch rest ih =>
      have later (other : (txn.touched touch).timestamp = none) (unasked : txn.assigns? touch = none) :
          ∃ zeros, txn.assigned (touch :: rest) =
            List.replicate zeros 0 ++ ((touch :: rest).foldl touched txn).timestamp.toList ∧
              ((touch :: rest).foldl touched txn).timestamp ≠ some 0 := by
        rw [assigned, unasked]
        exact ih other
      cases touch with
      | moveTo target | forceAbort | append row =>
          exact later ((timestamp_touched_of_other (by simp)).trans unstamped) rfl
      | assign timestamp =>
          have accepted := assign_of_unstamped unstamped timestamp
          have noted : txn.assigns? (.assign timestamp) = some timestamp := by
            rw [assigns?, accepted]
            rfl
          have left : txn.touched (.assign timestamp) =
              if timestamp = 0 then txn else { txn with timestamp := some timestamp } := by
            rw [touched, touch, accepted]
            rfl
          rw [assigned, noted, List.foldl_cons, left]
          by_cases zero : timestamp = 0
          · obtain ⟨zeros, whole, nonzero⟩ := ih unstamped
            refine ⟨zeros + 1, ?_, by rwa [if_pos zero]⟩
            rw [if_pos zero, whole, zero, List.replicate_succ]
            rfl
          · rw [if_neg zero]
            have stamped : { txn with timestamp := some timestamp }.timestamp = some timestamp := rfl
            obtain ⟨still, none⟩ := foldl_touched_of_stamped stamped rest
            refine ⟨0, ?_, ?_⟩
            · rw [none, still]
              rfl
            · rw [still]
              simpa using zero

/-- A nonzero timestamp is assigned at most once, under any sequence of handle operations. An
assignment succeeds only without a timestamp; a nonzero one is the timestamp from then on and makes
every later assignment fail with an error that contains it, and assigning zero changes nothing. -/
theorem assigned_once (txn : Transaction) (touches : List Touch) :
    ((txn.assigned touches).filter (· ≠ 0)).length ≤ 1 ∧
    ∀ before timestamp after, touches = before ++ .assign timestamp :: after →
      let standing := before.foldl touched txn
      ∀ left, standing.touch (.assign timestamp) = .ok left →
        standing.timestamp = none ∧
        if timestamp = 0 then left = standing
        else
          let last := after.foldl touched left
          last.timestamp = some timestamp ∧
            ∀ other, last.touch (.assign other) = .error (.stamped txn.id timestamp) := by
  constructor
  · cases stamped : txn.timestamp with
    | some current => simp [(foldl_touched_of_stamped stamped touches).2]
    | none =>
        obtain ⟨zeros, whole, _⟩ := assigned_eq stamped touches
        rw [whole, List.filter_append, List.filter_replicate_of_neg (by simp), List.nil_append]
        refine Nat.le_trans (List.length_filter_le _ _) ?_
        exact Option.length_toList_le
  · intro before timestamp after whole standing left accepted
    have unstamped : standing.timestamp = none := by
      cases stamped : standing.timestamp with
      | none => rfl
      | some current =>
          rw [touch, assign_of_stamped stamped] at accepted
          contradiction
    rw [touch, assign_of_unstamped unstamped, Except.ok.injEq] at accepted
    refine ⟨unstamped, ?_⟩
    split
    · rename_i zero
      rw [← accepted, if_pos zero]
    · rename_i nonzero
      rw [if_neg nonzero] at accepted
      intro last
      have stays : last.timestamp = some timestamp :=
        (foldl_touched_of_stamped (congrArg Transaction.timestamp accepted.symm) after).1
      have name : last.id = txn.id :=
        (left.id_foldl_touched after).trans
          ((congrArg Transaction.id accepted.symm).trans (txn.id_foldl_touched before))
      refine ⟨stays, fun other => ?_⟩
      rw [touch, assign_of_stamped stays, name]

/-- Assigning zero leaves the transaction without a timestamp, and a second assignment succeeds. -/
theorem zero_assigned_again :
    let txn : Transaction := { id := 1 }
    let touches : List Touch := [.assign 0, .assign 5]
    txn.assigned touches = [0, 5] ∧ txn.touch (.assign 0) = .ok txn ∧ txn.timestamp = none ∧
      (touches.foldl touched txn).timestamp = some 5 := by
  intro txn touches
  exact ⟨rfl, rfl, rfl, rfl⟩

end Transaction

end Isolation
