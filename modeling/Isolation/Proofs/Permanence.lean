import Isolation.Proofs.Validation

/-!
Persistence of commits in the ledger. The committed list grows monotonically, and the record of a
committed transaction is preserved by all operations except a failed validation of the same
transaction, which removes it.
-/

namespace Isolation

/-- The timestamps of the record are unchanged and its object sets have not shrunk. -/
structure AccessRecord.Stays (record later : AccessRecord) : Prop where
  validation : later.validation = record.validation
  finish : later.finish = record.finish
  objects : ∀ action, ∀ object ∈ record.objects action, object ∈ later.objects action

namespace AccessRecord.Stays

variable {record later latest : AccessRecord}

theorem refl (record : AccessRecord) : record.Stays record :=
  ⟨rfl, rfl, fun _ _ member => member⟩

theorem trans (first : record.Stays later) (second : later.Stays latest) : record.Stays latest where
  validation := second.validation.trans first.validation
  finish := second.finish.trans first.finish
  objects action object member := second.objects action object (first.objects action object member)

theorem note (record : AccessRecord) (object : ObjectId) (action : Action) :
    record.Stays (record.note object action) where
  validation := by cases action <;> rfl
  finish := by cases action <;> rfl
  objects _ _ member := AccessRecord.mem_objects_note.mpr (.inl member)

end AccessRecord.Stays

namespace Ledger

variable {ledger : Ledger} {id other : TxnId} {record : AccessRecord}

theorem touch_frame (ledger : Ledger) (id : TxnId) :
    (ledger.touch id).2.committed = ledger.committed ∧ ledger.clock ≤ (ledger.touch id).2.clock ∧
      ∀ other ≠ id, (ledger.touch id).2.record? other = ledger.record? other := by
  cases found : ledger.record? id with
  | some record =>
      rw [touch_of_found found]
      exact ⟨rfl, Nat.le_refl _, fun _ _ => rfl⟩
  | none =>
      simp only [touch, found]
      refine ⟨rfl, Nat.le_succ _, fun other different => ?_⟩
      exact (record?_put ledger id other _).trans (if_neg different.symm)

/-- Every operation is monotone in the clock and appends its commits to the committed list. -/
theorem operate_frame (ledger : Ledger) (operation : Operation) :
    ledger.clock ≤ (ledger.operate operation).clock ∧
      (ledger.operate operation).committed =
        ledger.committed ++ (ledger.events operation).filterMap Event.committed? := by
  cases operation with
  | access id object action =>
      obtain ⟨committed, clock, _⟩ := ledger.touch_frame id
      exact ⟨clock, committed.trans (List.append_nil _).symm⟩
  | validate id =>
      obtain ⟨committed, clock, _⟩ := ledger.touch_frame id
      simp only [operate, events]
      cases valid : (ledger.validate id).1.isValid with
      | true =>
          rw [validate_valid valid]
          exact ⟨Nat.le_add_right_of_le clock, congrArg (· ++ [id]) committed⟩
      | false =>
          rw [validate_invalid valid]
          exact ⟨Nat.le_add_right_of_le clock, committed.trans (List.append_nil _).symm⟩
  | discard id =>
      simp only [operate, events, discard]
      split <;> exact ⟨Nat.le_refl _, (List.append_nil _).symm⟩

theorem operations_frame (ledger : Ledger) (operations : List Operation) :
    ledger.clock ≤ (operations.foldl operate ledger).clock ∧
      (operations.foldl operate ledger).committed =
        ledger.committed ++ (ledger.history operations).filterMap Event.committed? := by
  induction operations generalizing ledger with
  | nil => simp [history]
  | cons operation rest ih =>
      obtain ⟨clock, committed⟩ := ledger.operate_frame operation
      obtain ⟨later, listed⟩ := ih (ledger.operate operation)
      refine ⟨Nat.le_trans clock later, ?_⟩
      rw [List.foldl_cons, listed, committed, history, List.filterMap_append, List.append_assoc]

/-- Only a validation of the transaction itself adds it to the committed list. -/
theorem validate_mem_of_committed {operations : List Operation}
    (committed : .committed id ∈ ledger.history operations) : .validate id ∈ operations := by
  induction operations generalizing ledger with
  | nil => contradiction
  | cons operation rest ih =>
      rw [history, List.mem_append] at committed
      rcases committed with now | later
      · cases operation with
        | access other object action => simp [events] at now
        | discard other =>
            simp only [events] at now
            split at now <;> simp at now
        | validate other =>
            simp only [events] at now
            split at now
            · rw [List.mem_singleton] at now
              cases now
              exact List.mem_cons_self
            · simp at now
      · exact List.mem_cons_of_mem _ (ih later)

theorem record?_of_committed (found : ledger.record? id = some record)
    (committed : id ∈ ledger.committed) {operation : Operation}
    (unvalidated : operation ≠ .validate id) :
    ∃ later, (ledger.operate operation).record? id = some later ∧ record.Stays later := by
  cases operation with
  | access other object action =>
      simp only [operate, access_eq, record?_put]
      by_cases own : other = id
      · subst own
        rw [touch_of_found found, if_pos rfl]
        exact ⟨_, rfl, .note record object action⟩
      · rw [if_neg own, (ledger.touch_frame other).2.2 id (Ne.symm own)]
        exact ⟨record, found, .refl record⟩
  | validate other =>
      have different : id ≠ other := fun same => unvalidated (congrArg Operation.validate same.symm)
      have touched := (ledger.touch_frame other).2.2 id different
      refine ⟨record, ?_, .refl record⟩
      cases valid : (ledger.validate other).1.isValid with
      | true =>
          rw [operate, validate_valid valid]
          exact (record?_put _ other id _).trans ((if_neg different.symm).trans (touched.trans found))
      | false =>
          rw [operate, validate_invalid valid]
          exact (record?_erase _ different).trans (touched.trans found)
  | discard other =>
      refine ⟨record, ?_, .refl record⟩
      simp only [operate, discard]
      split
      · exact found
      · rename_i uncommitted
        have different : id ≠ other := fun same => uncommitted (same ▸ committed)
        exact (record?_erase ledger different).trans found

theorem record?_of_operations (found : ledger.record? id = some record)
    (committed : id ∈ ledger.committed) {operations : List Operation}
    (unvalidated : .validate id ∉ operations) :
    ∃ later, (operations.foldl operate ledger).record? id = some later ∧ record.Stays later := by
  induction operations generalizing ledger record with
  | nil => exact ⟨record, found, .refl record⟩
  | cons operation rest ih =>
      rw [List.mem_cons, not_or] at unvalidated
      obtain ⟨next, nextFound, stays⟩ := record?_of_committed found committed (Ne.symm unvalidated.1)
      have still : id ∈ (ledger.operate operation).committed := by
        rw [(ledger.operate_frame operation).2]
        exact List.mem_append_left _ committed
      obtain ⟨later, laterFound, kept⟩ := ih nextFound still unvalidated.2
      exact ⟨later, laterFound, stays.trans kept⟩

theorem record?_of_valid (valid : (ledger.validate id).1.isValid = true) :
    ∃ record validation, (ledger.validate id).2.record? id = some record ∧
      record.validation = some validation ∧ validation < (ledger.validate id).2.clock ∧
      record.finish = some (ledger.validate id).2.clock := by
  rw [validate_valid valid]
  exact ⟨_, _, (record?_put _ id id _).trans (if_pos rfl), rfl, Nat.lt_succ_self _, rfl⟩

/-- Validation reports a conflict with a committed record that finished after the start of the
reader and whose writes intersect its reads. -/
theorem exists_conflict {reader : TxnId} {reading : AccessRecord} {validation finish : Timestamp}
    {object : ObjectId} (committed : id ∈ ledger.committed)
    (found : ledger.record? id = some record) (validated : record.validation = some validation)
    (finished : record.finish = some finish) (order : validation < finish)
    (bound : finish ≤ ledger.clock) (running : ledger.record? reader = some reading)
    (overtaken : reading.start < finish) (read : object ∈ reading.objects .read)
    (written : object ∈ record.objects .write) :
    ∃ conflict ∈ (ledger.validate reader).1, conflict.committed = id ∧ object ∈ conflict.objects := by
  have missed : object ∈ reading.missed record := AccessRecord.mem_missed.mpr ⟨written, read⟩
  have between : finish < ledger.clock + 1 := Nat.lt_succ_of_le bound
  have earlier : record.validation.any (· < ledger.clock + 1) = true := by
    rw [validated]
    exact decide_eq_true (Nat.lt_trans order between)
  refine ⟨⟨id, reading.missed record⟩, ?_, rfl, missed⟩
  rw [validate_conflicts, touch_of_found running, conflicts, List.mem_flatMap]
  refine ⟨id, committed, ?_⟩
  simp only [found, earlier, if_true]
  rw [AccessRecord.against_of_between finished overtaken between,
    if_neg (List.ne_nil_of_mem missed)]
  exact List.mem_singleton_self _

/-- Permanence of commits. Without another validation of the transaction, every sequence of
operations keeps its entry in the committed list and its record with the finish time of the commit.
The committed list has one entry for each successful validation, and each validation of a
transaction that started before the finish and read an object of the write set reports the conflict. -/
theorem committed_permanent (before after : List Operation) (id : TxnId)
    (valid : ((before.foldl operate {}).validate id).1.isValid = true)
    (unvalidated : .validate id ∉ after) :
    let committing := ((before.foldl operate {}).validate id).2
    let ledger := after.foldl operate committing
    ledger.committed =
      (({} : Ledger).history (before ++ .validate id :: after)).filterMap Event.committed? ∧
    ledger.committed.count id = (before.foldl operate {}).committed.count id + 1 ∧
    ∃ final kept, committing.record? id = some final ∧ final.finish = some committing.clock ∧
      ledger.record? id = some kept ∧ final.Stays kept ∧
      ∀ reader reading, ledger.record? reader = some reading → reading.start < committing.clock →
        ∀ object ∈ reading.objects .read, object ∈ final.objects .write →
          ∃ conflict ∈ (ledger.validate reader).1,
            conflict.committed = id ∧ object ∈ conflict.objects := by
  intro committing ledger
  have whole : (before ++ .validate id :: after).foldl operate {} = ledger := by
    rw [List.foldl_append]
    rfl
  obtain ⟨clock, listed⟩ := committing.operations_frame after
  have committed : committing.committed = (before.foldl operate {}).committed ++ [id] := by
    have own := (Ledger.operate_frame (before.foldl operate {}) (.validate id)).2
    simpa [operate, events, valid, Event.committed?] using own
  have member : id ∈ committing.committed := by simp [committed]
  have others : ((committing.history after).filterMap Event.committed?).count id = 0 :=
    List.count_eq_zero.mpr fun again =>
      unvalidated (validate_mem_of_committed (mem_filterMap_committed?.mp again))
  refine ⟨?_, ?_, ?_⟩
  · rw [← whole, (({} : Ledger).operations_frame _).2]
    rfl
  · rw [listed, List.count_append, others, committed, List.count_append, List.count_singleton_self]
  · obtain ⟨final, validation, found, validated, order, finished⟩ := record?_of_valid valid
    obtain ⟨kept, keptFound, stays⟩ := record?_of_operations found member unvalidated
    refine ⟨final, kept, found, finished, keptFound, stays, ?_⟩
    intro reader reading running overtaken object read written
    have still : id ∈ ledger.committed := listed ▸ List.mem_append_left _ member
    exact exists_conflict still keptFound (stays.validation.trans validated)
      (stays.finish.trans finished) order clock running overtaken read
      (stays.objects .write object written)

/-- The record persists through later accesses and a discard of its transaction, and a reader that
started before its finish is refused. -/
theorem committed_permanent_touched :
    let before : List Operation := [.access 3 "y" .read, .access 1 "x" .read, .access 1 "y" .write]
    let after : List Operation :=
      [.access 1 "z" .write, .discard 1, .access 2 "x" .write, .validate 2]
    let ledger := after.foldl operate ((before.foldl operate {}).validate 1).2
    ((before.foldl operate {}).validate 1).1.isValid = true ∧ .validate 1 ∉ after ∧
    ledger.committed.count 1 = 1 ∧ ∃ kept, ledger.record? 1 = some kept ∧ kept.finish = some 4 := by
  intro before after ledger
  have valid : ((before.foldl operate {}).validate 1).1.isValid = true := by decide
  have unvalidated : .validate 1 ∉ after := by simp [after]
  obtain ⟨_, once, final, kept, _, finished, found, stays, _⟩ :=
    committed_permanent before after 1 valid unvalidated
  exact ⟨valid, unvalidated, once, kept, found, stays.finish.trans finished⟩

/-- A failed second validation removes the record of a committed transaction. The transaction
remains in the committed list, and a reader that started before its finish is validated without a
conflict. -/
theorem committed_not_permanent :
    let operations : List Operation := [.access 3 "y" .read, .access 1 "x" .read,
      .access 1 "y" .write, .validate 1, .access 2 "x" .write, .validate 2]
    let ledger := operations.foldl operate {}
    let next := (ledger.validate 1).2
    1 ∈ ledger.committed ∧ (ledger.record? 1).isSome = true ∧
      (ledger.validate 3).1 = [⟨1, ["y"]⟩] ∧
    1 ∈ next.committed ∧ (next.record? 1).isSome = false ∧ (next.validate 3).1 = [] := by
  decide

end Ledger

end Isolation
