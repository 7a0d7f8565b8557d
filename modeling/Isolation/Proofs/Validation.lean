import Mathlib.Data.List.Sort
import Isolation.Proofs.Ledger

/-!
Exactness of validation. The conflicts reported by the ledger correspond to the rivals of a
transaction, that is to the transactions that committed since the creation of its record, whose
writes intersect its reads.
-/

namespace Isolation

/-- The objects read by one transaction and written by another, in ascending order. -/
def overlap (reader writer : TxnId) (history : List Event) : List ObjectId :=
  (Std.ExtTreeSet.ofList ((touched .write writer history).filter
    (· ∈ touched .read reader history)) : ObjectSet).toList

variable {reader writer id : TxnId} {past : List Event} {object : ObjectId}

theorem mem_overlap : object ∈ overlap reader writer past ↔
    object ∈ touched .write writer past ∧ object ∈ touched .read reader past := by
  simp [overlap, Std.ExtTreeSet.mem_ofList]

theorem overlap_pairwise (reader writer : TxnId) (past : List Event) :
    (overlap reader writer past).Pairwise (· < ·) := by
  have ascending : (overlap reader writer past).Pairwise
      fun first second => compare first second = .lt := Std.ExtTreeSet.ordered_toList
  exact ascending.imp fun order => compareOfLessAndEq_eq_lt.mp order

namespace Ledger

variable {ledger : Ledger}

theorem validate_conflicts (ledger : Ledger) (id : TxnId) :
    (ledger.validate id).1 =
      (ledger.touch id).2.conflicts (ledger.touch id).1 ((ledger.touch id).2.clock + 1) := by
  simp only [validate]
  split <;> rfl

theorem validate_valid (valid : (ledger.validate id).1.isValid = true) :
    (ledger.validate id).2 =
      { (ledger.touch id).2.put id { (ledger.touch id).1 with
          validation := some ((ledger.touch id).2.clock + 1)
          finish := some ((ledger.touch id).2.clock + 2) } with
        clock := (ledger.touch id).2.clock + 2
        committed := (ledger.touch id).2.committed ++ [id] } := by
  rw [validate_conflicts] at valid
  simp only [validate, valid, if_true]

theorem validate_invalid (invalid : (ledger.validate id).1.isValid = false) :
    (ledger.validate id).2 =
      { (ledger.touch id).2 with
        clock := (ledger.touch id).2.clock + 1
        records := (ledger.touch id).2.records.erase id } := by
  rw [validate_conflicts] at invalid
  simp only [validate, invalid, Bool.false_eq_true, if_false]

theorem record?_erase (ledger : Ledger) {other : TxnId} (different : other ≠ id) :
    (ledger.records.erase id)[other]? = ledger.record? other := by
  have kept : compare id other ≠ .eq := fun same =>
    different (Std.LawfulEqCmp.compare_eq_iff_eq.mp same).symm
  exact Std.ExtTreeMap.getElem?_erase.trans (if_neg kept)

theorem discard_of_not_mem (uncommitted : id ∉ ledger.committed) :
    ledger.discard id = { ledger with records := ledger.records.erase id } :=
  if_neg uncommitted

namespace Agrees

theorem missed_eq_overlap {record other : AccessRecord}
    (read : ∀ object, object ∈ record.objects .read ↔ object ∈ touched .read reader past)
    (wrote : ∀ object, object ∈ other.objects .write ↔ object ∈ touched .write writer past) :
    record.missed other = overlap reader writer past := by
  apply (record.missed_pairwise other).eq_of_mem_iff (overlap_pairwise reader writer past)
  intro object
  rw [AccessRecord.mem_missed, mem_overlap, read, wrote]

/-- The conflicts of a validation, computed from the history. -/
theorem conflicts_eq (agrees : ledger.Agrees past) (uncommitted : id ∉ ledger.committed) :
    (ledger.validate id).1 = ledger.committed.filterMap fun rival =>
      if rival ∈ rivals id past ∧ overlap id rival past ≠ [] then
        some ⟨rival, overlap id rival past⟩
      else none := by
  obtain ⟨_, others, committed, clock, _, noted, ordered⟩ := agrees.touch uncommitted
  rw [validate_conflicts, conflicts, committed, List.filterMap_eq_flatMap_toList]
  generalize (ledger.touch id).1 = record at *
  generalize (ledger.touch id).2 = next at *
  apply List.flatMap_congr
  intro rival member
  have different : rival ≠ id := fun same => uncommitted (same ▸ member)
  obtain ⟨other, validation, finish, found, validated, finished, order, bound⟩ :=
    agrees.finished rival member
  have ended : finish < next.clock + 1 := Nat.lt_succ_of_le (Nat.le_trans bound clock)
  have earlier : other.validation.any (· < next.clock + 1) = true := by
    rw [validated]
    exact decide_eq_true (Nat.lt_trans order ended)
  have missed : record.missed other = overlap id rival past :=
    missed_eq_overlap (fun object => (noted object .read).trans mem_touched.symm)
      (fun object => (agrees.noted found object .write).trans mem_touched.symm)
  have sides := ordered member found finished
  simp only [others different, found, earlier, if_true]
  by_cases since : rival ∈ rivals id past
  · rw [if_pos (mem_rivals.mp since)] at sides
    rw [AccessRecord.against_of_between finished sides ended, missed]
    by_cases none : overlap id rival past = [] <;> simp [since, none]
  · rw [if_neg (mt mem_rivals.mpr since)] at sides
    rw [AccessRecord.against_of_before finished sides]
    simp [since]

theorem mem_conflicts (agrees : ledger.Agrees past) (uncommitted : id ∉ ledger.committed)
    {conflict : Conflict} :
    conflict ∈ (ledger.validate id).1 ↔ ∃ rival ∈ rivals id past,
      overlap id rival past ≠ [] ∧ ⟨rival, overlap id rival past⟩ = conflict := by
  rw [agrees.conflicts_eq uncommitted, List.mem_filterMap]
  constructor
  · intro given
    obtain ⟨rival, _, found⟩ := given
    split at found
    · rename_i against
      exact ⟨rival, against.1, against.2, Option.some.inj found⟩
    · contradiction
  · intro given
    obtain ⟨rival, since, some, same⟩ := given
    refine ⟨rival, ?_, by rw [if_pos ⟨since, some⟩, same]⟩
    rw [agrees.committed]
    exact mem_filterMap_committed?.mpr (mem_of_mem_since (mem_rivals.mp since))

theorem isValid_iff (agrees : ledger.Agrees past) (uncommitted : id ∉ ledger.committed) :
    (ledger.validate id).1.isValid = true ↔ Unopposed id past := by
  rw [Conflicts.isValid, List.isEmpty_iff, List.eq_nil_iff_forall_not_mem]
  constructor
  · intro none rival since object wrote read
    have common : object ∈ overlap id rival past := mem_overlap.mpr ⟨wrote, read⟩
    exact none _ ((agrees.mem_conflicts uncommitted).mpr
      ⟨rival, since, List.ne_nil_of_mem common, rfl⟩)
  · intro apart conflict member
    obtain ⟨rival, since, some, _⟩ := (agrees.mem_conflicts uncommitted).mp member
    obtain ⟨object, common⟩ := List.exists_mem_of_ne_nil _ some
    exact apart rival since object (mem_overlap.mp common).1 (mem_overlap.mp common).2

/-- A successful validation corresponds to a commit in the history. -/
theorem commit (agrees : ledger.Agrees past) (uncommitted : id ∉ ledger.committed)
    (valid : (ledger.validate id).1.isValid = true) :
    (ledger.validate id).2.Agrees (past ++ [.committed id]) := by
  obtain ⟨_, others, committed, clock, started, noted, ordered⟩ := agrees.touch uncommitted
  rw [validate_valid valid]
  generalize (ledger.touch id).1 = record at *
  generalize (ledger.touch id).2 = next at *
  apply agrees.extend uncommitted rfl (by simp)
  case present => exact (record?_put _ id id _).trans (if_pos rfl)
  case others =>
      intro other different
      exact (record?_put _ id other _).trans
        ((if_neg (Ne.symm different)).trans (others different))
  case committed => exact congrArg (· ++ [id]) committed
  case clock => exact Nat.le_add_right_of_le clock
  case started => exact Nat.le_add_right_of_le started
  case noted =>
      intro object action
      rw [List.mem_append, ← noted]
      cases action <;> simp [AccessRecord.objects]
  case finished =>
      intro _
      exact ⟨_, _, rfl, rfl, Nat.lt_succ_of_le (Nat.le_succ_of_le clock), Nat.lt_succ_self _,
        Nat.le_refl _⟩
  case ordered => exact ordered

theorem committed_of_valid (agrees : ledger.Agrees past) (uncommitted : id ∉ ledger.committed)
    (valid : (ledger.validate id).1.isValid = true) :
    (ledger.validate id).2.committed = ledger.committed ++ [id] := by
  rw [validate_valid valid]
  exact congrArg (· ++ [id]) (agrees.touch uncommitted).committed

theorem discard (agrees : ledger.Agrees past) (uncommitted : id ∉ ledger.committed) :
    (ledger.discard id).Agrees (past ++ [.dropped id]) := by
  rw [discard_of_not_mem uncommitted]
  exact agrees.drop uncommitted Std.ExtTreeMap.getElem?_erase_self (record?_erase ledger) rfl
    (Nat.le_refl _)

/-- A failed validation removes the record of the transaction and changes no other record. -/
theorem refuse (agrees : ledger.Agrees past) (uncommitted : id ∉ ledger.committed)
    (invalid : (ledger.validate id).1.isValid = false) :
    (ledger.validate id).2.record? id = none ∧
      (∀ other ≠ id, (ledger.validate id).2.record? other = ledger.record? other) ∧
      (ledger.validate id).2.committed = ledger.committed ∧
      ledger.clock ≤ (ledger.validate id).2.clock := by
  obtain ⟨_, others, committed, clock, _, _, _⟩ := agrees.touch uncommitted
  rw [validate_invalid invalid]
  generalize (ledger.touch id).2 = next at *
  refine ⟨?_, fun other different => ?_, committed, Nat.le_add_right_of_le clock⟩
  · exact Std.ExtTreeMap.getElem?_erase_self
  · exact (record?_erase next different).trans (others different)

end Agrees

/-- The operations of a ledger. -/
inductive Operation where
  | access (id : TxnId) (object : ObjectId) (action : Action)
  | validate (id : TxnId)
  | discard (id : TxnId)

def operate (ledger : Ledger) : Operation → Ledger
  | .access id object action => ledger.access id object action
  | .validate id => (ledger.validate id).2
  | .discard id => ledger.discard id

/-- The events of an operation. A discard of a committed transaction has none. -/
def events (ledger : Ledger) : Operation → List Event
  | .access id object action => [.granted ⟨id, object, action⟩]
  | .validate id => if (ledger.validate id).1.isValid then [.committed id] else [.dropped id]
  | .discard id => if id ∈ ledger.committed then [] else [.dropped id]

def history (ledger : Ledger) : List Operation → List Event
  | [] => []
  | operation :: rest => ledger.events operation ++ (ledger.operate operation).history rest

theorem history_append (ledger : Ledger) (first second : List Operation) :
    ledger.history (first ++ second) =
      ledger.history first ++ (first.foldl operate ledger).history second := by
  induction first generalizing ledger with
  | nil => rfl
  | cons operation rest ih =>
      simp only [List.cons_append, history, ih, List.append_assoc, List.foldl_cons]

/-- No event of a transaction follows its commit. -/
def NeverReused (history : List Event) : Prop :=
  history.Pairwise fun earlier later => earlier ≠ .committed later.id

instance (history : List Event) : Decidable (NeverReused history) :=
  inferInstanceAs (Decidable (history.Pairwise _))

theorem Agrees.operate (agrees : ledger.Agrees past) (operation : Operation)
    (unused : ∀ event ∈ ledger.events operation, event.id ∉ ledger.committed) :
    (ledger.operate operation).Agrees (past ++ ledger.events operation) := by
  cases operation with
  | access id object action =>
      exact agrees.access (unused _ (List.mem_singleton_self _)) object action
  | validate id =>
      simp only [Ledger.operate, events] at unused ⊢
      cases valid : (ledger.validate id).1.isValid with
      | true =>
          rw [valid] at unused
          exact agrees.commit (unused (.committed id) (by simp)) valid
      | false =>
          rw [valid] at unused
          have uncommitted : id ∉ ledger.committed := unused (.dropped id) (by simp)
          obtain ⟨gone, others, committed, clock⟩ := agrees.refuse uncommitted valid
          exact agrees.drop uncommitted gone (others _) committed clock
  | discard id =>
      simp only [Ledger.operate, events]
      split
      · rename_i committed
        rw [Ledger.discard, if_pos committed, List.append_nil]
        exact agrees
      · rename_i uncommitted
        exact agrees.discard uncommitted

theorem Agrees.operations (agrees : ledger.Agrees past) (operations : List Operation)
    (unused : NeverReused (past ++ ledger.history operations)) :
    (operations.foldl Ledger.operate ledger).Agrees (past ++ ledger.history operations) := by
  induction operations generalizing ledger past with
  | nil => simpa [Ledger.history] using agrees
  | cons operation rest ih =>
      rw [Ledger.history, ← List.append_assoc] at unused ⊢
      refine ih (agrees.operate operation fun event member committed => ?_) unused
      rw [agrees.committed] at committed
      have before := (List.pairwise_append.mp (List.pairwise_append.mp unused).1).2.2
      exact before _ (mem_filterMap_committed?.mp committed) event member rfl

/-- Exactness of validation for histories without reuse of committed names. The reported conflicts
are the rivals with a nonempty overlap, in commit order and with their overlaps. The validation
succeeds if and only if there is no conflict, that is if the transaction is unopposed. A failed
validation removes its record and preserves all others and the committed list. -/
theorem validate_exact (operations : List Operation) (id : TxnId)
    (unused : NeverReused (({} : Ledger).history (operations ++ [.validate id]))) :
    let history := ({} : Ledger).history operations
    let ledger := operations.foldl operate {}
    let conflicts := (ledger.validate id).1
    let next := (ledger.validate id).2
    ledger.committed = history.filterMap Event.committed? ∧
    conflicts = ledger.committed.filterMap (fun rival =>
      if rival ∈ rivals id history ∧ overlap id rival history ≠ [] then
        some ⟨rival, overlap id rival history⟩
      else none) ∧
    (∀ conflict ∈ conflicts, conflict.objects ≠ [] ∧ conflict.objects.Pairwise (· < ·) ∧
      ∀ object, object ∈ conflict.objects ↔
        object ∈ touched .write conflict.committed history ∧ object ∈ touched .read id history) ∧
    (conflicts.isValid = true ↔ Unopposed id history) ∧
    (conflicts.isValid = true → next.committed = ledger.committed ++ [id]) ∧
    (conflicts.isValid = false → next.record? id = none ∧ next.committed = ledger.committed ∧
      ∀ other ≠ id, next.record? other = ledger.record? other) := by
  intro history ledger conflicts next
  rw [history_append] at unused
  have agrees : ledger.Agrees history :=
    Agrees.empty.operations operations (List.pairwise_append.mp unused).1
  have uncommitted : id ∉ ledger.committed := by
    rw [agrees.committed]
    intro committed
    have asked : ∃ event ∈ ledger.history [.validate id], event.id = id := by
      simp only [Ledger.history, events, List.append_nil]
      split <;> exact ⟨_, List.mem_singleton_self _, rfl⟩
    obtain ⟨event, member, own⟩ := asked
    refine (List.pairwise_append.mp unused).2.2 _ (mem_filterMap_committed?.mp committed) event
      member ?_
    rw [own]
  refine ⟨agrees.committed, agrees.conflicts_eq uncommitted, ?_, agrees.isValid_iff uncommitted,
    agrees.committed_of_valid uncommitted, ?_⟩
  · intro conflict member
    obtain ⟨rival, _, some, rfl⟩ := (agrees.mem_conflicts uncommitted).mp member
    exact ⟨some, overlap_pairwise id rival history, fun object => mem_overlap⟩
  · intro invalid
    obtain ⟨gone, others, committed, _⟩ := agrees.refuse uncommitted invalid
    exact ⟨gone, committed, others⟩

/-- A transaction whose read is overwritten by a rival fails its validation with that conflict. -/
theorem validate_exact_overtaken :
    let operations : List Operation := [.access 1 "x" .read, .access 2 "x" .write, .validate 2]
    NeverReused (({} : Ledger).history (operations ++ [.validate 1])) ∧
      ((operations.foldl operate {}).validate 1).1 = [⟨2, ["x"]⟩] := by
  intro operations
  have unused : NeverReused (({} : Ledger).history (operations ++ [.validate 1])) := by decide
  refine ⟨unused, (validate_exact operations 1 unused).2.1.trans ?_⟩
  decide

end Ledger

end Isolation
