import Isolation.Transaction

/-!
Status paths along the edges of the lifecycle graph, and the continuation relation of courses. Every
operation on courses yields a continuation of its argument. A path cannot contain both a failed or
aborted status and `committed`.
-/

namespace Isolation

namespace Status

variable {source next target one : Status} {path rest : List Status}

/-- The edge path from `source` to `target` that visits the listed statuses in order. -/
def Way : Status → List Status → Status → Prop
  | source, [], target => source = target
  | source, next :: rest, target => source.canBecome next = true ∧ Way next rest target

instance decidableWay : (source : Status) → (path : List Status) → (target : Status) →
    Decidable (Way source path target)
  | source, [], target => inferInstanceAs (Decidable (source = target))
  | _, next :: rest, target =>
      have := decidableWay next rest target
      inferInstanceAs (Decidable (_ ∧ _))

theorem Way.append (way : Way source path next) (onward : Way next rest target) :
    Way source (path ++ rest) target := by
  induction path generalizing source with
  | nil =>
      cases way
      exact onward
  | cons first path ih => exact ⟨way.1, ih way.2⟩

theorem Way.of_terminated (way : Way .terminated path target) : path = [] ∧ target = .terminated := by
  cases path with
  | nil => exact ⟨rfl, way.symm⟩
  | cons next rest => exact absurd way.1 (by cases next <;> decide)

theorem Way.of_committed (way : Way .committed path target) : path = [] ∨ path = [.terminated] := by
  cases path with
  | nil => exact .inl rfl
  | cons next rest =>
      obtain ⟨legal, onward⟩ := way
      cases next with
      | terminated => exact .inr (by rw [onward.of_terminated.1])
      | _ => contradiction

/-- The statuses from which `committed` is unreachable. -/
def isLost : Status → Bool
  | failed
  | aborted
  | terminated => true
  | active
  | partiallyCommitted
  | committed => false

theorem isLost_of_isAborted (aborted : one.isAborted = true) : one.isLost = true := by
  cases one <;> first | rfl | contradiction

theorem isLost_of_canBecome (lost : source.isLost = true) (legal : source.canBecome next = true) :
    next.isLost = true := by
  revert lost legal
  cases source <;> cases next <;> decide

theorem Way.isLost (way : Way source path target) (lost : source.isLost = true) :
    (∀ status ∈ path, status.isLost = true) ∧ target.isLost = true := by
  induction path generalizing source with
  | nil =>
      cases way
      exact ⟨by simp, lost⟩
  | cons next rest ih =>
      have onward := isLost_of_canBecome lost way.1
      obtain ⟨lostRest, lostTarget⟩ := ih way.2 onward
      exact ⟨List.forall_mem_cons.mpr ⟨onward, lostRest⟩, lostTarget⟩

theorem Way.uncommitted (way : Way source path target) (lost : source.isLost = true) :
    .committed ∉ path ∧ target ≠ .committed := by
  obtain ⟨lostPath, lostTarget⟩ := way.isLost lost
  refine ⟨fun member => ?_, fun same => ?_⟩
  · exact absurd (lostPath _ member) (by decide)
  · rw [same] at lostTarget
    contradiction

/-- A path that visits a failed or aborted status does not visit `committed`. -/
theorem Way.apart (way : Way source path target) (member : one ∈ source :: path)
    (aborted : one.isAborted = true) : .committed ∉ source :: path := by
  induction path generalizing source with
  | nil =>
      rw [List.mem_singleton] at member ⊢
      rintro rfl
      rw [member] at aborted
      contradiction
  | cons next rest ih =>
      obtain ⟨legal, onward⟩ := way
      rcases List.mem_cons.mp member with rfl | later
      · have lost := isLost_of_isAborted aborted
        have same : Way one (next :: rest) target := ⟨legal, onward⟩
        rw [List.mem_cons, not_or]
        refine ⟨?_, (same.uncommitted lost).1⟩
        rintro rfl
        contradiction
      · rw [List.mem_cons, not_or]
        refine ⟨?_, ih onward later⟩
        rintro rfl
        -- The only edge from `committed` leads to `terminated`, which has none.
        have whole : Way .committed (next :: rest) target := ⟨legal, onward⟩
        rcases whole.of_committed with none | last
        · contradiction
        · rw [last, List.mem_singleton] at later
          rw [later] at aborted
          contradiction

/-- The final status of `forceAbort` as a function of the initial one. -/
def rolledBack : Status → Status
  | committed => committed
  | terminated => terminated
  | _ => aborted

end Status

open Status (Way)

namespace Course

variable {course next last : Course} {target : Status}

/-- The continuation relation on courses: the statuses added to `passed` form a path between the two
current statuses, and the transactions agree in every other field. -/
structure Continues (course next : Course) : Prop where
  txn : next.txn = { course.txn with status := next.txn.status }
  way : ∃ path, next.passed = course.passed ++ path ∧ Way course.txn.status path next.txn.status

theorem Continues.refl (course : Course) : course.Continues course :=
  ⟨rfl, [], (List.append_nil _).symm, rfl⟩

theorem Continues.trans (first : course.Continues next) (second : next.Continues last) :
    course.Continues last := by
  obtain ⟨path, passed, way⟩ := first.way
  obtain ⟨rest, passedRest, wayRest⟩ := second.way
  refine ⟨?_, path ++ rest, by rw [passedRest, passed, List.append_assoc], way.append wayRest⟩
  rw [second.txn, first.txn]

theorem of_moveTo (moved : course.moveTo target = .ok next) :
    course.txn.status.canBecome target = true ∧
      next = { txn := { course.txn with status := target }, passed := course.passed ++ [target] } := by
  unfold moveTo Transaction.moveTo at moved
  split at moved
  · rename_i txn legal
    split at legal
    · rename_i edge
      cases legal
      cases moved
      exact ⟨edge, rfl⟩
    · contradiction
  · contradiction

theorem continues_of_moveTo (moved : course.moveTo target = .ok next) : course.Continues next := by
  obtain ⟨edge, rfl⟩ := of_moveTo moved
  exact ⟨rfl, [target], rfl, edge, rfl⟩

theorem continues_tryMoveTo (course : Course) (target : Status) :
    course.Continues (course.tryMoveTo target) := by
  unfold tryMoveTo
  split
  · rename_i next moved
    exact continues_of_moveTo moved
  · exact .refl course

theorem continues_stepBack (course : Course) : course.Continues course.stepBack := by
  unfold stepBack
  split
  · exact .refl course
  · exact course.continues_tryMoveTo _

theorem continues_forceAbort (course : Course) : course.Continues course.forceAbort :=
  course.continues_stepBack.trans course.stepBack.continues_stepBack

theorem passed_of_moveTo (moved : course.moveTo target = .ok next) :
    next.passed = course.passed ++ [target] := by
  rw [(of_moveTo moved).2]

theorem committed_not_mem_stepBack (absent : .committed ∉ course.passed) :
    .committed ∉ course.stepBack.passed := by
  unfold stepBack
  split
  · exact absent
  · rename_i target onward
    unfold tryMoveTo
    split
    · rename_i next moved
      rw [passed_of_moveTo moved, List.mem_append, List.mem_singleton]
      refine not_or.mpr ⟨absent, ?_⟩
      rintro rfl
      cases status : course.txn.status <;> simp [status, Status.stepBack?] at onward
    · exact absent

theorem committed_not_mem_forceAbort (absent : .committed ∉ course.passed) :
    .committed ∉ course.forceAbort.passed :=
  committed_not_mem_stepBack (committed_not_mem_stepBack absent)

end Course

namespace Transaction

theorem forceAbort_eq (txn : Transaction) :
    txn.forceAbort = { txn with status := txn.status.rolledBack } := by
  obtain ⟨id, status, timestamp, log⟩ := txn
  cases status <;> rfl

theorem forceAbort_log (txn : Transaction) : txn.forceAbort.log = txn.log := by
  rw [forceAbort_eq]

theorem forceAbort_status (txn : Transaction) : txn.forceAbort.status = txn.status.rolledBack := by
  rw [forceAbort_eq]

end Transaction

end Isolation
