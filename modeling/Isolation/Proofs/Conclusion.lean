import Isolation.Engine
import Isolation.Proofs.Roster

/-!
Specifications of `conclude` and `expel`. The course that each of them runs continues the initial
course of the transaction, and the books change only through `Discipline.accept`.
-/

namespace Isolation

theorem isAborted_of_isActive {txn : Transaction} (active : txn.isActive = true) :
    txn.isAborted = false := by
  rw [Transaction.isAborted, of_decide_eq_true active]
  rfl

namespace Engine

variable {β : Type}

/-! ### Outcomes of the single steps -/

theorem rollBack_books (books : β) (course : Course) :
    (rollBack books course).books = books ∧ (rollBack books course).outcome ≠ .ok true := by
  unfold rollBack
  split <;> simp

theorem giveUp_books (books : β) (course : Course) (reason : TransitionError) :
    (giveUp books course reason).books = books ∧ (giveUp books course reason).outcome ≠ .ok true := by
  unfold giveUp
  split
  · exact rollBack_books books course
  · simp

/-- After a move to `partiallyCommitted` both remaining moves of `settle` are legal. -/
theorem settle_of_moved (books : β) {course before : Course}
    (moved : before.moveTo .partiallyCommitted = .ok course) :
    (settle books course).outcome = .ok true ∧ (settle books course).books = books := by
  obtain ⟨⟨id, status, timestamp, log⟩, passed⟩ := before
  cases status with
  | active =>
      cases moved
      exact ⟨rfl, rfl⟩
  | _ => contradiction

theorem rollBack_of_standing (books : β) {course : Course}
    (standing : course.txn.status ≠ .terminated) :
    (rollBack books course).outcome = .ok false ∧
      (rollBack books course).txn = { course.txn with status := .terminated } := by
  obtain ⟨⟨id, status, timestamp, log⟩, passed⟩ := course
  cases status with
  | terminated => contradiction
  | _ => exact ⟨rfl, rfl⟩

/-! ### Courses -/

theorem continues_rollBack (books : β) (course : Course) :
    course.Continues (rollBack books course).course := by
  unfold rollBack
  split
  · rename_i next moved
    exact course.continues_forceAbort.trans (Course.continues_of_moveTo moved)
  · exact course.continues_forceAbort

theorem continues_giveUp (books : β) (course : Course) (reason : TransitionError) :
    course.Continues (giveUp books course reason).course := by
  unfold giveUp
  split
  · exact continues_rollBack books course
  · exact .refl course

theorem continues_settle (books : β) (course : Course) :
    course.Continues (settle books course).course := by
  unfold settle
  split
  · exact continues_giveUp books course _
  · rename_i committed moved
    split
    · rename_i next ended
      exact (Course.continues_of_moveTo moved).trans (Course.continues_of_moveTo ended)
    · exact Course.continues_of_moveTo moved

theorem continues_expel (txn : Transaction) : txn.course.Continues (expel txn) := by
  unfold expel
  split
  · exact txn.course.continues_tryMoveTo .terminated
  · exact txn.course.continues_forceAbort.trans (Course.continues_tryMoveTo _ .terminated)

theorem committed_not_mem_rollBack (books : β) {course : Course} (absent : .committed ∉ course.passed) :
    .committed ∉ (rollBack books course).course.passed := by
  have back := Course.committed_not_mem_forceAbort absent
  unfold rollBack
  split
  · rename_i next moved
    rw [Course.passed_of_moveTo moved, List.mem_append, List.mem_singleton]
    exact not_or.mpr ⟨back, by decide⟩
  · exact back

theorem expel_txn (txn : Transaction) : (expel txn).txn = { txn with status := .terminated } := by
  obtain ⟨id, status, timestamp, log⟩ := txn
  cases status <;> rfl

variable [Discipline β]

theorem continues_conclude (books : β) (txn : Transaction) (commit : Bool) :
    txn.course.Continues (conclude books txn commit).course := by
  unfold conclude
  split
  · exact continues_rollBack books txn.course
  · split
    · exact continues_giveUp books txn.course _
    · rename_i next moved
      have first := Course.continues_of_moveTo moved
      split
      · exact first.trans (continues_rollBack _ next)
      · exact first.trans (continues_settle _ next)

theorem conclude_identity (books : β) (txn : Transaction) (commit : Bool) :
    (conclude books txn commit).txn.identity = txn.identity := by
  rw [Ending.txn, (continues_conclude books txn commit).txn]
  rfl

/-! ### Outcomes of `conclude` -/

/-- The outcome is a commit exactly if `Discipline.accept` was evaluated and answered `true`. -/
theorem conclude_cases (books : β) (txn : Transaction) (commit : Bool) :
    ((conclude books txn commit).outcome = .ok true ∧
      Discipline.accept books txn.id = (true, (conclude books txn commit).books)) ∨
    ((conclude books txn commit).outcome ≠ .ok true ∧
      ((conclude books txn commit).books = books ∨
        Discipline.accept books txn.id = (false, (conclude books txn commit).books))) := by
  unfold conclude
  split
  · obtain ⟨same, failed⟩ := rollBack_books books txn.course
    exact .inr ⟨failed, .inl same⟩
  · split
    · rename_i reason illegal
      obtain ⟨same, failed⟩ := giveUp_books books txn.course reason
      exact .inr ⟨failed, .inl same⟩
    · rename_i next moved
      split
      · rename_i left accepted
        obtain ⟨same, failed⟩ := rollBack_books left next
        exact .inr ⟨failed, .inr (by rw [same]; exact accepted)⟩
      · rename_i left accepted
        obtain ⟨committed, same⟩ := settle_of_moved left moved
        exact .inl ⟨committed, by rw [same]; exact accepted⟩

/-- If `Discipline.accept` preserves the books, then `conclude` does. -/
theorem conclude_books {books : β} (keeps : ∀ id, (Discipline.accept books id).2 = books)
    (txn : Transaction) (commit : Bool) : (conclude books txn commit).books = books := by
  rcases conclude_cases books txn commit with ⟨_, accepted⟩ | ⟨_, same | refused⟩
  · exact (congrArg Prod.snd accepted).symm.trans (keeps txn.id)
  · exact same
  · exact (congrArg Prod.snd refused).symm.trans (keeps txn.id)

theorem conclude_of_aborted (books : β) {txn : Transaction} (aborted : txn.isAborted = true)
    (commit : Bool) :
    (conclude books txn commit).outcome = .ok false ∧
      (conclude books txn commit).txn = { txn with status := .terminated } ∧
      (conclude books txn commit).books = books := by
  have standing : txn.course.txn.status ≠ .terminated := by
    intro ended
    rw [Transaction.isAborted, show txn.status = .terminated from ended] at aborted
    contradiction
  obtain ⟨outcome, left⟩ := rollBack_of_standing books standing
  rw [conclude, aborted, Bool.or_true, if_pos rfl]
  exact ⟨outcome, left, (rollBack_books books txn.course).1⟩

/-- A commit request for a transaction that is not aborted. `Discipline.accept` is evaluated for an
active transaction only. -/
theorem conclude_running (books : β) {txn : Transaction} (running : txn.isAborted = false) :
    conclude books txn true =
      if txn.isActive then
        let course : Course :=
          { txn := { txn with status := .partiallyCommitted }, passed := [.partiallyCommitted] }
        if (Discipline.accept books txn.id).1 then settle (Discipline.accept books txn.id).2 course
        else rollBack (Discipline.accept books txn.id).2 course
      else
        { outcome := .error (.illegal txn.id txn.status .partiallyCommitted)
          course := txn.course, books } := by
  obtain ⟨id, status, timestamp, log⟩ := txn
  cases status with
  | failed | aborted => contradiction
  | partiallyCommitted | committed | terminated => rfl
  | active =>
      rcases answer : Discipline.accept books id with ⟨accepted, left⟩
      cases accepted <;>
        simp [conclude, Transaction.isAborted, Status.isAborted, Transaction.course, Course.moveTo,
          Transaction.moveTo, Status.canBecome, Transaction.isActive, answer]

/-- The specification of `conclude` on the two statuses that a live transaction can have without
moves by handle holders. `Discipline.accept` is evaluated exactly for active transactions that
request a commit. -/
theorem conclude_of_undecided (books : β) {txn : Transaction}
    (undecided : txn.status = .active ∨ txn.status = .aborted) (commit : Bool) :
    (conclude books txn commit).outcome =
        .ok (commit && txn.isActive && (Discipline.accept books txn.id).1) ∧
      (conclude books txn commit).txn = { txn with status := .terminated } ∧
      (conclude books txn commit).books =
        if commit && txn.isActive then (Discipline.accept books txn.id).2 else books := by
  rcases undecided with active | aborted
  case inr =>
      have lost : txn.isAborted = true := by rw [Transaction.isAborted, aborted]; rfl
      simp [conclude_of_aborted books lost, Transaction.isActive, aborted]
  case inl =>
      have running : txn.isActive = true := decide_eq_true active
      cases commit with
      | false =>
          have standing : txn.course.txn.status ≠ .terminated := by simp [Transaction.course, active]
          obtain ⟨outcome, left⟩ := rollBack_of_standing books standing
          rw [conclude, Bool.not_false, Bool.true_or, if_pos rfl]
          exact ⟨outcome, left, (rollBack_books books txn.course).1⟩
      | true =>
          rw [conclude_running books (isAborted_of_isActive running), running, if_pos rfl]
          cases accepted : (Discipline.accept books txn.id).1 with
          | true => exact ⟨rfl, rfl, rfl⟩
          | false => exact ⟨rfl, rfl, rfl⟩

/-- The course passes `committed` if and only if the outcome is a commit. -/
theorem committed_mem_passed (books : β) (txn : Transaction) (commit : Bool) :
    .committed ∈ (conclude books txn commit).course.passed ↔
      (conclude books txn commit).outcome = .ok true := by
  by_cases rolls : (!commit || txn.isAborted) = true
  · rw [conclude, if_pos rolls]
    exact iff_of_false (committed_not_mem_rollBack books (List.not_mem_nil))
      (rollBack_books books txn.course).2
  · simp only [Bool.or_eq_true, not_or, Bool.not_eq_true', Bool.not_eq_true, Bool.not_eq_false]
      at rolls
    obtain ⟨rfl, running⟩ := rolls
    rw [conclude_running books running]
    split
    · dsimp only
      split
      · exact iff_of_true
          (show .committed ∈ [Status.partiallyCommitted, .committed, .terminated] by decide) rfl
      · exact iff_of_false
          (committed_not_mem_rollBack _ (show .committed ∉ [Status.partiallyCommitted] by decide))
          (rollBack_books _ _).2
    · exact iff_of_false List.not_mem_nil (by simp)

end Engine

end Isolation
