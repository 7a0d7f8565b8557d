import Isolation.Proofs.Deeds

/-!
Access decisions as a function of the requester's status. All three disciplines refuse a failed or
aborted requester. Only locking refuses the other inactive statuses; timestamp ordering and
validation judge a partially committed, committed or terminated requester as an active one.
-/

namespace Isolation

/-- Requests of failed and aborted transactions are refused with an unchanged scene. -/
class Discipline.RefusesAborted (β : Type) [Discipline β] : Prop where
  judge_aborted : ∀ (scene : Scene β) (handle : Handle) (txn : Transaction) (object : ObjectId)
    (action : Action), txn.isAborted = true →
      Discipline.judge scene handle txn object action = (.refused .aborted, scene)

theorem Locking.judge_inactive (scene : Scene Locking) (handle : Handle) {txn : Transaction}
    (object : ObjectId) (action : Action) (inactive : txn.isActive = false) :
    Discipline.judge scene handle txn object action = (.refused (refusal txn), scene) := by
  rw [judge_eq, judge, inactive, if_neg Bool.false_ne_true]

instance : Discipline.RefusesAborted Locking where
  judge_aborted scene handle txn object action aborted := by
    have inactive : txn.isActive = false := by
      cases active : txn.isActive with
      | false => rfl
      | true =>
          rw [isAborted_of_isActive active] at aborted
          contradiction
    rw [Locking.judge_inactive scene handle object action inactive, Locking.refusal, if_pos aborted]

instance : Discipline.RefusesAborted Watermarks where
  judge_aborted scene handle txn object action aborted := by
    rw [Watermarks.judge_eq, Watermarks.judge, if_pos aborted]

instance : Discipline.RefusesAborted Ledger where
  judge_aborted scene handle txn object action aborted := by
    rw [Ledger.judge_eq, Ledger.judge, if_pos aborted]

namespace Engine

variable {β : Type} [Discipline β] {engine : Engine β} {id : TxnId} {handle : Handle}
  {txn : Transaction}

theorem access_of_aborted [Discipline.RefusesAborted β]
    (found : engine.roster.find? id = some (handle, txn)) (aborted : txn.isAborted = true)
    (object : ObjectId) (action : Action) :
    engine.access object id action = (.refused .aborted, engine.refuse) := by
  simp only [access, found, Discipline.RefusesAborted.judge_aborted _ _ _ _ _ aborted]
  rfl

theorem accessAll_of_refused {refusal : Refusal} {object : ObjectId} {action : Action}
    (refused : engine.access object id action = (.refused refusal, engine.refuse))
    (rest : List ObjectId) :
    engine.accessAll (object :: rest) id action = (.refused refusal, engine.refuse) := by
  simp only [accessAll, accessFrom, refused, Verdict.isAllowed, Bool.false_eq_true, if_false]

end Engine

theorem Locking.access_of_inactive {engine : Engine Locking} {id : TxnId} {handle : Handle}
    {txn : Transaction} (found : engine.roster.find? id = some (handle, txn))
    (inactive : txn.isActive = false) (object : ObjectId) (action : Action) :
    engine.access object id action = (.refused (refusal txn), engine.refuse) := by
  simp only [Engine.access, found, judge_inactive _ _ _ _ inactive, refusal]
  split <;> rfl

theorem Watermarks.access_of_running {engine : Engine Watermarks} {id : TxnId} {handle : Handle}
    {txn : Transaction} (orderly : engine.Orderly)
    (found : engine.roster.find? id = some (handle, txn)) (running : txn.isAborted = false)
    (object : ObjectId) (action : Action) :
    engine.access object id action =
      match (engine.books.of object).violation? action id with
      | none => (.allowed (.inOrder action id),
          { engine with books := engine.books.raise object action id })
      | some violation => (.refused (.late violation), { engine with
          roster := { engine.roster with
            made := engine.roster.made.modify handle Transaction.forceAbort }
          counters := engine.counters.countVerdict (.refused (.late violation)) }) := by
  have stamped : txn.timestamp = some id := congrArg Prod.snd (orderly.identity_of_find? found)
  simp only [Engine.access, found, judge_eq, judge, running, Bool.false_eq_true, if_false, stamped,
    check]
  cases (engine.books.of object).violation? action id <;> rfl

theorem Ledger.access_of_running {engine : Engine Ledger} {id : TxnId} {handle : Handle}
    {txn : Transaction}
    (orderly : engine.Orderly) (found : engine.roster.find? id = some (handle, txn))
    (running : txn.isAborted = false) (object : ObjectId) (action : Action) :
    engine.access object id action = (.allowed (.recorded action),
      { engine with books := engine.books.access id object action }) := by
  simp only [Engine.access, found, judge_eq, judge, running, Bool.false_eq_true, if_false,
    orderly.id_of_find? found]
  rfl

/-- The verdict and the resulting engine for a live requester of each status. A locking engine
refuses every status but `active` and changes nothing but the count of refusals. The other two do so
for `failed` and `aborted` only: for any other status a timestamp engine decides by `violation?` and
raises the mark, and a validating engine allows the access and records it. -/
theorem access_by_status (algorithm : Algorithm) (recovery : Option RecoveryLog) (deeds : List Deed)
    (object : ObjectId) (id : TxnId) (action : Action) :
    match deeds.foldl Running.after (Running.fresh recovery algorithm) with
    | .lock engine => ∀ status, engine.status? id = some status → status ≠ .active →
        engine.access object id action =
          (.refused (if status.isAborted then .aborted else .inactive), engine.refuse)
    | .timestamp engine => ∀ status, engine.status? id = some status →
        if status.isAborted then engine.access object id action = (.refused .aborted, engine.refuse)
        else match (engine.books.of object).violation? action id with
          | none => engine.access object id action = (.allowed (.inOrder action id),
              { engine with books := engine.books.raise object action id })
          | some violation =>
              (engine.access object id action).1 = .refused (.late violation) ∧
                (engine.access object id action).2.books = engine.books
    | .validation engine => ∀ status, engine.status? id = some status →
        engine.access object id action =
          if status.isAborted then (.refused .aborted, engine.refuse)
          else (.allowed (.recorded action),
            { engine with books := engine.books.access id object action }) := by
  have orderly := Running.orderly_deeds (Running.fresh_orderly recovery algorithm) deeds
  generalize deeds.foldl Running.after (Running.fresh recovery algorithm) = running at orderly
  cases running with
  | lock engine =>
      intro status standing inactive
      obtain ⟨handle, txn, found, rfl⟩ := Engine.exists_find?_of_status? standing
      exact Locking.access_of_inactive found (decide_eq_false inactive) object action
  | timestamp engine =>
      intro status standing
      obtain ⟨handle, txn, found, rfl⟩ := Engine.exists_find?_of_status? standing
      split
      · rename_i aborted
        exact Engine.access_of_aborted found aborted object action
      · rename_i running
        have judged := Watermarks.access_of_running orderly found (Bool.eq_false_iff.mpr running)
          object action
        split <;> rename_i late <;> rw [late] at judged
        · exact judged
        · exact judged ▸ ⟨rfl, rfl⟩
  | validation engine =>
      intro status standing
      obtain ⟨handle, txn, found, rfl⟩ := Engine.exists_find?_of_status? standing
      split
      · rename_i aborted
        exact Engine.access_of_aborted found aborted object action
      · rename_i running
        exact Ledger.access_of_running orderly found (Bool.eq_false_iff.mpr running) object action

/-- The timestamp and validation disciplines allow accesses of partially committed transactions, so
that inactivity alone does not imply a refusal. -/
theorem access_past_last : ¬ ∀ (algorithm : Algorithm) (deeds : List Deed) (object : ObjectId)
    (id : TxnId) (action : Action),
    let running := deeds.foldl Running.after (Running.fresh none algorithm)
    (running.ask fun engine => engine.status? id) = some .partiallyCommitted →
      (running.ask fun engine => (engine.access object id action).1.isAllowed) = false := by
  intro refused
  have written : (([.call .begin, .moveTo 0 .partiallyCommitted] : List Deed).foldl Running.after
      (Running.fresh none .timestamp)).ask
        (fun engine => (engine.access "x" 1 .write).1.isAllowed) = true := by
    decide
  rw [refused .timestamp _ "x" 1 .write (by decide)] at written
  contradiction

end Isolation
