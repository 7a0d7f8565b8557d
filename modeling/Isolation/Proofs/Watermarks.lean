import Isolation.Proofs.Marks

/-!
Watermarks under arbitrary sequences of updates and checks. A mark is the maximum of the timestamps
accepted for it, and operations on one object are independent of all others.
-/

namespace Isolation

namespace Watermarks

/-- The operations on the marks of an object: an unconditional update, and a check that updates the
mark unless the timestamp violates the order. -/
inductive Operation where
  | raise (object : ObjectId) (action : Action) (timestamp : Timestamp)
  | check (object : ObjectId) (action : Action) (timestamp : Timestamp)

def Operation.object : Operation → ObjectId
  | raise object _ _ | check object _ _ => object

/-- The timestamp that an operation offers to a mark. -/
def Operation.stamp? (object : ObjectId) (action : Action) : Operation → Option Timestamp
  | raise target kind timestamp | check target kind timestamp =>
      if target = object ∧ kind = action then some timestamp else none

/-- The watermarks after an operation. A failed check is the identity. -/
def operate (watermarks : Watermarks) : Operation → Watermarks
  | .raise object action timestamp => watermarks.raise object action timestamp
  | .check object action timestamp =>
      (watermarks.check object action timestamp).toOption.getD watermarks

def accepts (watermarks : Watermarks) : Operation → Bool
  | .raise _ _ _ => true
  | .check object action timestamp => (watermarks.check object action timestamp).isOk

/-- The timestamps accepted for a mark, in order. -/
def accepted (watermarks : Watermarks) (object : ObjectId) (action : Action) :
    List Operation → List Timestamp
  | [] => []
  | operation :: rest =>
      (if watermarks.accepts operation then operation.stamp? object action else none).toList ++
        (watermarks.operate operation).accepted object action rest

variable {watermarks other : Watermarks} {object : ObjectId} {action : Action} {timestamp : Timestamp}
  {violation : Violation}

theorem check_eq_error_iff : watermarks.check object action timestamp = .error violation ↔
    (watermarks.of object).violation? action timestamp = some violation := by
  unfold check
  cases (watermarks.of object).violation? action timestamp <;> simp

theorem check_read_eq_error_iff : watermarks.check object .read timestamp = .error violation ↔
    timestamp < (watermarks.of object).write ∧
      violation = .readTooLate timestamp (watermarks.of object).write := by
  rw [check_eq_error_iff, Marks.violation?]
  split
  · rename_i late
    simp [late, eq_comm]
  · rename_i inTime
    simp [inTime]

theorem check_write_eq_error_iff : watermarks.check object .write timestamp = .error violation ↔
    if timestamp < (watermarks.of object).read then
      violation = .writeAfterRead timestamp (watermarks.of object).read
    else
      timestamp < (watermarks.of object).write ∧
        violation = .writeTooLate timestamp (watermarks.of object).write := by
  rw [check_eq_error_iff, Marks.violation?]
  split
  · simp [eq_comm]
  · split
    · rename_i late
      simp [late, eq_comm]
    · rename_i inTime
      simp [inTime]

/-- A check with a violation is the identity. -/
theorem operate_of_late (late : (watermarks.of object).violation? action timestamp = some violation) :
    watermarks.operate (.check object action timestamp) = watermarks ∧
      watermarks.accepts (.check object action timestamp) = false := by
  rw [operate, accepts, check_eq_error_iff.mpr late]
  exact ⟨rfl, rfl⟩

/-- A check without a violation is the unconditional update. -/
theorem operate_of_inTime (inTime : (watermarks.of object).violation? action timestamp = none) :
    watermarks.operate (.check object action timestamp) = watermarks.raise object action timestamp ∧
      watermarks.accepts (.check object action timestamp) = true := by
  simp only [operate, accepts, check, inTime]
  exact ⟨rfl, rfl⟩

theorem of_raise_eq (watermarks : Watermarks) (target object : ObjectId) (kind action : Action)
    (timestamp : Timestamp) :
    ((watermarks.raise target kind timestamp).of object).of action =
      if target = object ∧ kind = action then max ((watermarks.of object).of action) timestamp
      else (watermarks.of object).of action := by
  rw [of_raise]
  by_cases here : target = object
  · simp only [here, if_true, true_and, Marks.of_raise]
  · simp only [here, if_false, false_and]

/-- The mark after an operation is the maximum of the old mark and the accepted timestamp. -/
theorem of_operate (watermarks : Watermarks) (operation : Operation) (object : ObjectId)
    (action : Action) :
    ((watermarks.operate operation).of object).of action =
      (watermarks.accepted object action [operation]).foldl max ((watermarks.of object).of action) := by
  rw [accepted, accepted, List.append_nil]
  cases operation with
  | raise target kind timestamp =>
      rw [operate, accepts, of_raise_eq, if_pos rfl, Operation.stamp?]
      split <;> rfl
  | check target kind timestamp =>
      cases judged : (watermarks.of target).violation? kind timestamp with
      | some violation =>
          obtain ⟨left, refused⟩ := operate_of_late judged
          rw [left, refused]
          rfl
      | none =>
          obtain ⟨left, granted⟩ := operate_of_inTime judged
          rw [left, granted, of_raise_eq, if_pos rfl, Operation.stamp?]
          split <;> rfl

/-- The mark after a sequence of operations is the maximum of the initial mark and the accepted
timestamps. -/
theorem of_foldl_operate (watermarks : Watermarks) (operations : List Operation) (object : ObjectId)
    (action : Action) :
    ((operations.foldl operate watermarks).of object).of action =
      (watermarks.accepted object action operations).foldl max ((watermarks.of object).of action) := by
  induction operations generalizing watermarks with
  | nil => rfl
  | cons operation rest ih =>
      rw [List.foldl_cons, ih, of_operate, accepted, accepted, accepted, List.append_nil,
        List.foldl_append]

/-- The effect of an operation on the marks of its object depends on these marks only. -/
theorem of_operate_eq (same : watermarks.of object = other.of object) (operation : Operation) :
    (watermarks.operate operation).of object =
      if operation.object = object then (other.operate operation).of object
      else watermarks.of object := by
  cases operation with
  | raise target kind timestamp =>
      rw [operate, operate, of_raise, of_raise, Operation.object]
      split
      · rename_i here
        rw [here, same]
      · rfl
  | check target kind timestamp =>
      rw [Operation.object]
      split
      · rename_i here
        subst here
        cases judged : (watermarks.of target).violation? kind timestamp with
        | some violation =>
            rw [(operate_of_late judged).1, (operate_of_late (same ▸ judged)).1, same]
        | none =>
            rw [(operate_of_inTime judged).1, (operate_of_inTime (same ▸ judged)).1, of_raise, of_raise,
              same]
      · rename_i elsewhere
        cases judged : (watermarks.of target).violation? kind timestamp with
        | some violation => rw [(operate_of_late judged).1]
        | none => rw [(operate_of_inTime judged).1, of_raise, if_neg elsewhere]

/-- The marks of an object are those after the operations on this object alone. -/
theorem of_foldl_filter (same : watermarks.of object = other.of object) (operations : List Operation) :
    (operations.foldl operate watermarks).of object =
      ((operations.filter (·.object = object)).foldl operate other).of object := by
  induction operations generalizing watermarks other with
  | nil => exact same
  | cons operation rest ih =>
      have step := of_operate_eq same operation
      rw [List.foldl_cons, List.filter_cons]
      by_cases here : operation.object = object
      · rw [if_pos (decide_eq_true here)]
        exact ih (step.trans (if_pos here))
      · rw [if_neg (by simpa using here)]
        exact ih (step.trans ((if_neg here).trans same))

/-- The marks of every object after any sequence of operations are the maxima of the accepted
timestamps. A read check fails if and only if its timestamp is below the write mark. A write check
fails if and only if its timestamp is below the read mark, which is compared first, or below the
write mark. The error contains the timestamp and the violated mark. Operations on other objects
change neither marks nor outcomes. -/
theorem marks_are_maxima (operations : List Operation) (object : ObjectId) :
    let watermarks := operations.foldl operate {}
    let read := largest (accepted {} object .read operations)
    let written := largest (accepted {} object .write operations)
    let alone := (operations.filter (·.object = object)).foldl operate {}
    (watermarks.of object).read = read ∧ (watermarks.of object).write = written ∧
    (∀ timestamp violation, watermarks.check object .read timestamp = .error violation ↔
      timestamp < written ∧ violation = .readTooLate timestamp written) ∧
    (∀ timestamp violation, watermarks.check object .write timestamp = .error violation ↔
      if timestamp < read then violation = .writeAfterRead timestamp read
      else timestamp < written ∧ violation = .writeTooLate timestamp written) ∧
    alone.of object = watermarks.of object ∧
    ∀ action timestamp violation, alone.check object action timestamp = .error violation ↔
      watermarks.check object action timestamp = .error violation := by
  intro watermarks read written alone
  have reads : (watermarks.of object).read = read := of_foldl_operate {} operations object .read
  have writes : (watermarks.of object).write = written := of_foldl_operate {} operations object .write
  have same : alone.of object = watermarks.of object := (of_foldl_filter rfl operations).symm
  refine ⟨reads, writes, fun timestamp violation => ?_, fun timestamp violation => ?_, same,
    fun action timestamp violation => ?_⟩
  · rw [check_read_eq_error_iff, writes]
  · rw [check_write_eq_error_iff, reads, writes]
  · rw [check_eq_error_iff, check_eq_error_iff, same]

end Watermarks

end Isolation
