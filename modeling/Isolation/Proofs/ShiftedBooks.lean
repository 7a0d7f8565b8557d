import Isolation.Proofs.Refusals
import Isolation.Proofs.Lock.Shift

/-!
The books of an engine without live transactions. They need not be empty, but they are equivalent to
empty books for all transactions with larger numbers: no lock is held, every mark is bounded by the
last number, and every committed transaction has finished before any later record starts. The
equivalence is a relation up to translation of numbers that each discipline preserves.
-/

namespace Isolation

/-- Transactions are numbered consecutively from one. -/
def Transactions.Numbered (β : Type) [Discipline β] (made : Transactions) : Prop :=
  ∀ (handle : Handle) (txn : Transaction), made[handle]? = some txn →
    txn.identity = Engine.birth β (handle + 1)

theorem Engine.Orderly.numbered_made {β : Type} [Discipline β] {engine : Engine β}
    (orderly : engine.Orderly) : Transactions.Numbered β engine.roster.made :=
  fun _ _ present => orderly.identity_of_made present

/-- Every operation of the discipline preserves a relation between books whose numbers differ by a
constant. Each discipline supplies its own relation `Shifted`. -/
class Discipline.CommutesWithShift (β : Type) [Discipline β] extends Discipline.OnlyForcesAborts β where
  Shifted : Nat → β → β → Prop
  judge {n : Nat} (old new : Scene β) {handle : Handle} {txn : Transaction} (object : ObjectId)
      (action : Action) :
    Transactions.Shifted n old.made new.made → Shifted n old.books new.books →
    Transactions.Numbered β new.made → new.made[handle]? = some txn →
    let ahead := Discipline.judge old (handle + n) (txn.shift n) object action
    let behind := Discipline.judge new handle txn object action
    ahead.1 = behind.1.shift n ∧ Transactions.Shifted n ahead.2.made behind.2.made ∧
      Shifted n ahead.2.books behind.2.books
  accept {n : Nat} {old new : β} {id : TxnId} : Shifted n old new → 0 < id →
    (Discipline.accept old (id + n)).1 = (Discipline.accept new id).1 ∧
      Shifted n (Discipline.accept old (id + n)).2 (Discipline.accept new id).2
  leave {n : Nat} {old new : β} {id : TxnId} : Shifted n old new → 0 < id →
    Shifted n (Discipline.leave old (id + n)) (Discipline.leave new id)

variable {n : Nat}

namespace Locking

theorem refusal_shift (txn : Transaction) : refusal (txn.shift n) = (refusal txn).shift n := by
  cases aborted : txn.isAborted <;> simp [refusal, aborted, Refusal.shift]

theorem verdict_shift (txn : Transaction) (object : ObjectId) (mode : LockMode)
    (outcome : LockOutcome) :
    verdict (txn.shift n) object mode (outcome.shift n) = (verdict txn object mode outcome).shift n := by
  cases outcome with
  | requesterInactive => exact congrArg Verdict.refused (refusal_shift txn)
  | _ => rfl

instance : Discipline.CommutesWithShift Locking where
  Shifted n old new := LockTable.Shifted n old.table new.table
  judge {n} old new {handle txn} object action made table numbered present := by
    have stamped (handle : Handle) (txn : Transaction) (found : new.made[handle]? = some txn) :
        txn.timestamp.isSome = true := by
      rw [show txn.timestamp = some (handle + 1) from congrArg Prod.snd (numbered handle txn found)]
      rfl
    cases active : txn.isActive with
    | false =>
        simp only [judge_eq, judge, Transaction.isActive_shift, active, Bool.false_eq_true, if_false]
        exact ⟨congrArg Verdict.refused (refusal_shift txn), made, table⟩
    | true =>
        obtain ⟨outcome, locks, transactions⟩ :=
          LockTable.Shifted.acquire table made stamped object handle (modeFor action)
        simp only [judge_eq, judge, Transaction.isActive_shift, active, if_true, outcome, verdict_shift]
        exact ⟨trivial, transactions, locks⟩
  accept table _ := ⟨rfl, table⟩
  leave {_ _ _ id} table _ := LockTable.Shifted.release table id

/-- Without live transactions the lock table has no holders, so it is related to the empty table. -/
theorem shifted_of_nobody {engine : Engine Locking} {past : List Event} (sound : Sound engine past)
    (nobody : ∀ id, id ∉ engine.roster.live) (recovery : Option RecoveryLog) :
    Discipline.CommutesWithShift.Shifted engine.last engine.books { recovery : Locking } := by
  intro object
  have none : engine.books.table.holders object = [] :=
    List.eq_nil_iff_forall_not_mem.mpr fun holder member =>
      nobody holder.id (sound.recorded.mem_holders.mp member).1
  rw [none]
  simp [LockTable.holders, LockTable.entry]

end Locking

namespace Marks

/-- The marks as seen by timestamps above `n`. -/
def lower (n : Nat) (marks : Marks) : Marks :=
  { read := marks.read - n, write := marks.write - n }

variable (marks : Marks) (action : Action) (timestamp : Timestamp)

theorem raise_shift :
    (marks.raise action (timestamp + n)).lower n = (marks.lower n).raise action timestamp := by
  have raised (mark : Timestamp) : max mark (timestamp + n) - n = max (mark - n) timestamp := by lia
  cases action <;> simp only [raise, lower, raised]

theorem violation?_shift : marks.violation? action (timestamp + n) =
    ((marks.lower n).violation? action timestamp).map (Violation.shift n) := by
  have later (mark : Timestamp) : timestamp < mark - n ↔ timestamp + n < mark :=
    Nat.lt_sub_iff_add_lt
  have restored {mark : Timestamp} (late : timestamp + n < mark) : mark - n + n = mark := by lia
  cases action with
  | read =>
      simp only [violation?, lower, later]
      split
      · rename_i late
        simp only [Option.map_some, Violation.shift, restored late]
      · rfl
  | write =>
      simp only [violation?, lower, later]
      split
      · rename_i late
        simp only [Option.map_some, Violation.shift, restored late]
      · split
        · rename_i late
          simp only [Option.map_some, Violation.shift, restored late]
        · rfl

end Marks

namespace Watermarks

/-- The marks of `new` are those of `old` as seen by timestamps above `n`. -/
def Lowered (n : Nat) (old new : Watermarks) : Prop :=
  ∀ object, new.of object = (old.of object).lower n

theorem Lowered.raise {old new : Watermarks} (lowered : Lowered n old new) (object : ObjectId)
    (action : Action) (timestamp : Timestamp) :
    Lowered n (old.raise object action (timestamp + n)) (new.raise object action timestamp) := by
  intro other
  have marks (watermarks : Watermarks) (timestamp : Timestamp) :
      (watermarks.raise object action timestamp).of other =
        if object = other then (watermarks.of object).raise action timestamp
        else watermarks.of other := by
    simp only [Watermarks.of, Watermarks.raise, Std.ExtTreeMap.getElem?_insert,
      Std.LawfulEqCmp.compare_eq_iff_eq]
    split <;> rfl
  rw [marks, marks]
  split
  · rw [Marks.raise_shift, lowered]
  · exact lowered other

instance : Discipline.CommutesWithShift Watermarks where
  Shifted := Lowered
  judge {n} old new {handle txn} object action made lowered _ _ := by
    cases aborted : txn.isAborted with
    | true =>
        simp only [judge_eq, judge, Transaction.isAborted_shift, aborted, if_true]
        exact ⟨rfl, made, lowered⟩
    | false =>
        simp only [judge_eq, judge, Transaction.isAborted_shift, aborted, Bool.false_eq_true, if_false]
        cases stamped : txn.timestamp with
        | none =>
            simp only [Transaction.shift, stamped, Option.map_none]
            exact ⟨rfl, made, lowered⟩
        | some timestamp =>
            simp only [Transaction.shift, stamped, Option.map_some, check, Marks.violation?_shift,
              ← lowered object]
            cases (new.books.of object).violation? action timestamp with
            | none => exact ⟨rfl, made, lowered.raise object action timestamp⟩
            | some violation =>
                exact ⟨rfl, made.modify handle Transaction.forceAbort_shift, lowered⟩
  accept lowered _ := ⟨rfl, lowered⟩
  leave lowered _ := lowered

/-- All marks are bounded by the last number, so the marks are related to the empty ones. -/
theorem shifted_of_nobody {engine : Engine Watermarks} {past : List Event}
    (sound : Sound engine past) :
    Discipline.CommutesWithShift.Shifted engine.last engine.books ({} : Watermarks) := by
  intro object
  have bound (action : Action) : (engine.books.of object).of action ≤ engine.last := by
    rw [sound.exact, largest_le_iff]
    intro id member
    exact (sound.chronicle.bounded _ (mem_grantees_isKind.mp member)).2
  have read : (engine.books.of object).read - engine.last = 0 := Nat.sub_eq_zero_of_le (bound .read)
  have write : (engine.books.of object).write - engine.last = 0 := Nat.sub_eq_zero_of_le (bound .write)
  simp only [Marks.lower, read, write]
  simp [Watermarks.of]

end Watermarks

def AccessRecord.shift (offset : Timestamp) (record : AccessRecord) : AccessRecord :=
  { record with
    start := record.start + offset
    validation := record.validation.map (· + offset)
    finish := record.finish.map (· + offset) }

def Conflict.shift (n : Nat) (conflict : Conflict) : Conflict :=
  { conflict with committed := conflict.committed + n }

/-- Conflict detection commutes with a translation of all times in the two records. -/
theorem AccessRecord.against_shift (offset : Timestamp) (record other : AccessRecord)
    (validation : Timestamp) (id : TxnId) :
    (record.shift offset).against (validation + offset) (id + n) (other.shift offset) =
      (record.against validation id other).map (Conflict.shift n) := by
  have start : (record.shift offset).start = record.start + offset := rfl
  have finish : (other.shift offset).finish = other.finish.map (· + offset) := rfl
  have missed : (record.shift offset).missed (other.shift offset) = record.missed other := rfl
  cases finished : other.finish with
  | none => simp only [against, finish, finished, Option.map_none, List.map_nil]
  | some time =>
      simp only [against, start, finish, finished, Option.map_some, Nat.add_lt_add_iff_right,
        missed]
      repeat' split
      all_goals rfl

namespace Ledger

variable {old new : Ledger} {offset : Timestamp} {bygone : List TxnId} {id : TxnId}

/-- The relation between the ledger of a used engine and that of a new one. The `bygone`
transactions have finished by time `offset`, and all other records and commits correspond. -/
structure Succeeds (n : Nat) (offset : Timestamp) (bygone : List TxnId) (old new : Ledger) : Prop where
  clock : old.clock = new.clock + offset
  committed : old.committed = bygone ++ new.committed.map (· + n)
  past : ∀ id ∈ bygone, id ≤ n ∧ ∀ record finish, old.record? id = some record →
    record.finish = some finish → finish ≤ offset
  records : ∀ id, 0 < id → old.record? (id + n) = (new.record? id).map (AccessRecord.shift offset)
  started : ∀ {id : TxnId} {record : AccessRecord}, new.record? id = some record → 0 < record.start
  named : ∀ id ∈ new.committed, 0 < id

namespace Succeeds

/-- Corresponding updates of one record preserve the relation. -/
theorem update (succeeds : Succeeds n offset bygone old new) (positive : 0 < id)
    {older newer : Ledger} (clock : older.clock = newer.clock + offset)
    (committed : older.committed = bygone ++ newer.committed.map (· + n))
    (listed : ∀ other ∈ newer.committed, other ∈ new.committed ∨ other = id)
    (own : older.record? (id + n) = (newer.record? id).map (AccessRecord.shift offset))
    (started : ∀ record, newer.record? id = some record → 0 < record.start)
    (others_old : ∀ other ≠ id + n, older.record? other = old.record? other)
    (others_new : ∀ other ≠ id, newer.record? other = new.record? other) :
    Succeeds n offset bygone older newer := by
  constructor
  case clock => exact clock
  case committed => exact committed
  case past =>
      intro other member
      obtain ⟨early, finished⟩ := succeeds.past other member
      have apart : other ≠ id + n := by lia
      rw [others_old other apart]
      exact ⟨early, finished⟩
  case records =>
      intro other begun
      by_cases same : other = id
      · rw [same, own]
      · rw [others_old _ (fun shifted => same (Nat.add_right_cancel shifted)), others_new other same]
        exact succeeds.records other begun
  case started =>
      intro other record found
      by_cases same : other = id
      · exact started record (same ▸ found)
      · exact succeeds.started (others_new other same ▸ found)
  case named =>
      intro other member
      rcases listed other member with before | same
      · exact succeeds.named other before
      · exact same ▸ positive

theorem put (succeeds : Succeeds n offset bygone old new) (positive : 0 < id) (record : AccessRecord)
    (begun : 0 < record.start) :
    Succeeds n offset bygone (old.put (id + n) (record.shift offset)) (new.put id record) := by
  apply succeeds.update positive
  case clock => exact succeeds.clock
  case committed => exact succeeds.committed
  case listed => exact fun other member => .inl member
  case own => rw [record?_put, record?_put, if_pos rfl, if_pos rfl, Option.map_some]
  case started =>
      intro other found
      rw [record?_put, if_pos rfl, Option.some.injEq] at found
      exact found ▸ begun
  case others_old => exact fun other different => (record?_put _ _ _ _).trans (if_neg different.symm)
  case others_new => exact fun other different => (record?_put _ _ _ _).trans (if_neg different.symm)

/-- Advancing both clocks by the same number of ticks preserves the relation. -/
theorem tick (succeeds : Succeeds n offset bygone old new) (ticks : Nat) :
    Succeeds n offset bygone { old with clock := old.clock + ticks }
      { new with clock := new.clock + ticks } where
  clock := by
    rw [succeeds.clock]
    exact Nat.add_right_comm _ _ _
  committed := succeeds.committed
  past := succeeds.past
  records := succeeds.records
  started := succeeds.started
  named := succeeds.named

theorem erase (succeeds : Succeeds n offset bygone old new) (positive : 0 < id) :
    Succeeds n offset bygone { old with records := old.records.erase (id + n) }
      { new with records := new.records.erase id } := by
  apply succeeds.update positive
  case clock => exact succeeds.clock
  case committed => exact succeeds.committed
  case listed => exact fun other member => .inl member
  case own =>
      simp only [record?, Std.ExtTreeMap.getElem?_erase_self, Option.map_none]
  case started =>
      intro record found
      simp only [record?, Std.ExtTreeMap.getElem?_erase_self, reduceCtorEq] at found
  case others_old => exact fun other different => record?_erase old different
  case others_new => exact fun other different => record?_erase new different

theorem mem_committed (succeeds : Succeeds n offset bygone old new) (positive : 0 < id) :
    id + n ∈ old.committed ↔ id ∈ new.committed := by
  rw [succeeds.committed, List.mem_append, List.mem_map]
  constructor
  · intro given
    rcases given with early | ⟨other, member, same⟩
    · have bound := (succeeds.past _ early).1
      lia
    · exact Nat.add_right_cancel same ▸ member
  · exact fun member => .inr ⟨id, member, rfl⟩

theorem discard (succeeds : Succeeds n offset bygone old new) (positive : 0 < id) :
    Succeeds n offset bygone (old.discard (id + n)) (new.discard id) := by
  simp only [Ledger.discard, succeeds.mem_committed positive]
  split
  · exact succeeds
  · exact succeeds.erase positive

theorem touch (succeeds : Succeeds n offset bygone old new) (positive : 0 < id) :
    (old.touch (id + n)).1 = (new.touch id).1.shift offset ∧ 0 < (new.touch id).1.start ∧
      Succeeds n offset bygone (old.touch (id + n)).2 (new.touch id).2 := by
  have records := succeeds.records id positive
  cases found : new.record? id with
  | some record =>
      rw [found, Option.map_some] at records
      rw [touch_of_found found, touch_of_found records]
      exact ⟨rfl, succeeds.started found, succeeds⟩
  | none =>
      rw [found, Option.map_none] at records
      have made : (AccessRecord.shift offset { start := new.clock + 1 }) = { start := old.clock + 1 } := by
        rw [succeeds.clock, Nat.add_right_comm]
        rfl
      simp only [Ledger.touch, found, records]
      refine ⟨made.symm, Nat.succ_pos _, ?_⟩
      rw [← made]
      exact (succeeds.put positive _ (Nat.succ_pos _)).tick 1

theorem access (succeeds : Succeeds n offset bygone old new) (positive : 0 < id) (object : ObjectId)
    (action : Action) :
    Succeeds n offset bygone (old.access (id + n) object action) (new.access id object action) := by
  obtain ⟨record, begun, next⟩ := succeeds.touch positive
  rw [access_eq, access_eq, record]
  have noted : ((new.touch id).1.shift offset).note object action =
      ((new.touch id).1.note object action).shift offset := by
    cases action <;> rfl
  rw [noted]
  apply next.put positive _
  cases action <;> exact begun

/-- A record that was started after `offset` has no conflict with a bygone transaction. -/
theorem conflicts (succeeds : Succeeds n offset bygone old new) {record : AccessRecord}
    (begun : 0 < record.start) (validation : Timestamp) :
    old.conflicts (record.shift offset) (validation + offset) =
      (new.conflicts record validation).map (Conflict.shift n) := by
  have silent : ({ old with committed := bygone } : Ledger).conflicts (record.shift offset)
      (validation + offset) = [] := by
    refine List.flatMap_eq_nil_iff.mpr fun id member => ?_
    have same : ({ old with committed := bygone } : Ledger).record? id = old.record? id := rfl
    rw [same]
    cases found : old.record? id with
    | none => rfl
    | some other =>
        dsimp only
        split
        · cases finished : other.finish with
          | none => simp only [AccessRecord.against, finished]
          | some finish =>
              have early := (succeeds.past id member).2 other finish found finished
              apply AccessRecord.against_of_before finished
              change finish < record.start + offset
              lia
        · rfl
  rw [Ledger.conflicts, succeeds.committed, List.flatMap_append]
  change Ledger.conflicts { old with committed := bygone } _ _ ++ _ = _
  rw [silent, List.nil_append, List.flatMap_map, Ledger.conflicts, List.map_flatMap]
  refine List.flatMap_congr fun id member => ?_
  rw [succeeds.records id (succeeds.named id member)]
  cases new.record? id with
  | none => rfl
  | some other =>
      have earlier : ((other.shift offset).validation.any (· < validation + offset)) =
          other.validation.any (· < validation) := by
        cases validated : other.validation <;> simp [AccessRecord.shift, validated]
      simp only [Option.map_some, earlier, AccessRecord.against_shift]
      split <;> rfl

theorem commit (succeeds : Succeeds n offset bygone old new) (positive : 0 < id) :
    Succeeds n offset bygone { old with committed := old.committed ++ [id + n] }
      { new with committed := new.committed ++ [id] } where
  clock := succeeds.clock
  committed := by
    rw [succeeds.committed, List.map_append, List.append_assoc]
    rfl
  past := succeeds.past
  records := succeeds.records
  started := succeeds.started
  named other member := by
    rcases List.mem_append.mp member with before | new
    · exact succeeds.named other before
    · exact List.mem_singleton.mp new ▸ positive

theorem validate (succeeds : Succeeds n offset bygone old new) (positive : 0 < id) :
    (old.validate (id + n)).1.isValid = (new.validate id).1.isValid ∧
      Succeeds n offset bygone (old.validate (id + n)).2 (new.validate id).2 := by
  obtain ⟨record, begun, next⟩ := succeeds.touch positive
  have time : (old.touch (id + n)).2.clock + 1 = ((new.touch id).2.clock + 1) + offset := by
    rw [next.clock, Nat.add_right_comm]
  have found : (old.validate (id + n)).1 = (new.validate id).1.map (Conflict.shift n) := by
    rw [validate_conflicts, validate_conflicts, record, time]
    exact next.conflicts begun _
  have same : (old.validate (id + n)).1.isValid = (new.validate id).1.isValid := by
    rw [found]
    exact List.isEmpty_map
  refine ⟨same, ?_⟩
  cases valid : (new.validate id).1.isValid with
  | true =>
      have placed := next.put positive { (new.touch id).1 with
        validation := some ((new.touch id).2.clock + 1)
        finish := some ((new.touch id).2.clock + 2) } begun
      have stamped : { (old.touch (id + n)).1 with
            validation := some ((old.touch (id + n)).2.clock + 1)
            finish := some ((old.touch (id + n)).2.clock + 2) } =
          AccessRecord.shift offset { (new.touch id).1 with
            validation := some ((new.touch id).2.clock + 1)
            finish := some ((new.touch id).2.clock + 2) } := by
        rw [record, next.clock]
        simp only [AccessRecord.shift, Option.map_some, Nat.add_right_comm]
      rw [validate_valid valid, validate_valid (same.trans valid), stamped]
      exact (placed.commit positive).tick 2
  | false =>
      rw [validate_invalid valid, validate_invalid (same.trans valid)]
      exact (next.erase positive).tick 1

end Succeeds

instance : Discipline.CommutesWithShift Ledger where
  Shifted n old new := ∃ offset bygone, Succeeds n offset bygone old new
  judge {n} old new {handle txn} object action made shifted numbered present := by
    obtain ⟨offset, bygone, succeeds⟩ := shifted
    have name : txn.id = handle + 1 := congrArg Prod.fst (numbered handle txn present)
    have positive : 0 < txn.id := name ▸ Nat.succ_pos handle
    cases aborted : txn.isAborted with
    | true =>
        simp only [judge_eq, judge, Transaction.isAborted_shift, aborted, if_true]
        exact ⟨rfl, made, offset, bygone, succeeds⟩
    | false =>
        simp only [judge_eq, judge, Transaction.isAborted_shift, aborted, Bool.false_eq_true, if_false]
        exact ⟨rfl, made, offset, bygone, succeeds.access positive object action⟩
  accept shifted positive := by
    obtain ⟨offset, bygone, succeeds⟩ := shifted
    obtain ⟨valid, next⟩ := succeeds.validate positive
    exact ⟨valid, offset, bygone, next⟩
  leave shifted positive := by
    obtain ⟨offset, bygone, succeeds⟩ := shifted
    exact ⟨offset, bygone, succeeds.discard positive⟩

/-- All committed transactions have finished by the current time, and later transactions have larger
numbers, so the ledger is related to the empty one. -/
theorem shifted_of_nobody {engine : Engine Ledger} {past : List Event} (sound : Sound engine past) :
    Discipline.CommutesWithShift.Shifted engine.last engine.books ({} : Ledger) := by
  refine ⟨engine.books.clock, engine.books.committed, ?_⟩
  constructor
  case clock => exact (Nat.zero_add _).symm
  case committed => exact (List.append_nil _).symm
  case past =>
      intro id member
      have committed : .committed id ∈ past := by
        rw [sound.agrees.committed] at member
        exact mem_filterMap_committed?.mp member
      refine ⟨(sound.chronicle.bounded _ committed).2, fun record finish found finished => ?_⟩
      obtain ⟨kept, _, time, keptFound, _, keptFinished, _, bound⟩ := sound.agrees.finished id member
      cases found.symm.trans keptFound
      cases finished.symm.trans keptFinished
      exact bound
  case records =>
      intro id positive
      have unheard : since (id + engine.last) past = [] := by
        by_contra begun
        obtain ⟨event, member, own⟩ := exists_own_of_begun begun
        have bound := (sound.chronicle.bounded event (mem_of_mem_since member)).2
        lia
      rw [(sound.agrees.kept _).mpr unheard]
      simp [record?]
  case started => exact fun found => by simp [record?] at found
  case named => exact fun id member => absurd member List.not_mem_nil

end Ledger

end Isolation
