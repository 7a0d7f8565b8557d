import Isolation.Proofs.Optimistic
import Isolation.Proofs.Permanence

/-!
The times assigned by the clock of a ledger: a start to each new record, and a validation and a
finish to each commit. Times increase along the committed list, and no time is assigned twice as a
start.
-/

namespace Isolation

/-- The start, validation and finish times of a record. -/
structure Times where
  start : Timestamp
  validation : Option Timestamp := none
  finish : Option Timestamp := none
  deriving DecidableEq

def AccessRecord.times (record : AccessRecord) : Times :=
  { start := record.start, validation := record.validation, finish := record.finish }

theorem AccessRecord.times_note (record : AccessRecord) (object : ObjectId) (action : Action) :
    (record.note object action).times = record.times := by
  cases action <;> rfl

/-- The time is one of the three. -/
def Times.Has (times : Times) (time : Timestamp) : Prop :=
  time = times.start ∨ times.validation = some time ∨ times.finish = some time

namespace Ledger

variable {ledger next : Ledger} {id other : TxnId}

def times? (ledger : Ledger) (id : TxnId) : Option Times :=
  (ledger.record? id).map AccessRecord.times

theorem times?_put (ledger : Ledger) (id other : TxnId) (record : AccessRecord) :
    (ledger.put id record).times? other =
      if id = other then some record.times else ledger.times? other := by
  rw [times?, record?_put]
  split <;> rfl

theorem touch_self (ledger : Ledger) (id : TxnId) :
    (ledger.touch id).2.record? id = some (ledger.touch id).1 := by
  cases found : ledger.record? id with
  | some record =>
      rw [touch_of_found found]
      exact found
  | none =>
      simp only [touch, found]
      exact (record?_put ledger id id _).trans (if_pos rfl)

/-- The validation and the finish of `earlier` precede the validation of `later`. -/
def Precedes (ledger : Ledger) (earlier later : TxnId) : Prop :=
  ∃ first validation finish second next,
    ledger.times? earlier = some { start := first, validation := some validation, finish := some finish } ∧
    ledger.times? later = some second ∧ second.validation = some next ∧
    validation < next ∧ finish < next

structure Stamped (ledger : Ledger) : Prop where
  bounded : ∀ {id : TxnId} {times : Times}, ledger.times? id = some times →
    ∀ {time : Timestamp}, times.Has time → time ≤ ledger.clock
  running : ∀ {id : TxnId} {times : Times}, ledger.times? id = some times →
    id ∉ ledger.committed → times.validation = none ∧ times.finish = none
  finished : ∀ id ∈ ledger.committed, ∃ start validation finish,
    ledger.times? id = some { start, validation := some validation, finish := some finish } ∧
      start < validation ∧ validation < finish
  ordered : ledger.committed.Pairwise ledger.Precedes
  distinct : ∀ {id other : TxnId} {times rival : Times}, ledger.times? id = some times →
    ledger.times? other = some rival → id ≠ other → ¬ rival.Has times.start

namespace Stamped

theorem empty : ({} : Ledger).Stamped where
  bounded found := by simp [times?, record?] at found
  running found := by simp [times?, record?] at found
  finished id member := by contradiction
  ordered := .nil
  distinct found := by simp [times?, record?] at found

/-- An update of one uncommitted record preserves the invariant if its times are new or its old
start, and a commit assigns the next two times to it. -/
theorem change (stamped : ledger.Stamped) (uncommitted : id ∉ ledger.committed)
    (clock : ledger.clock ≤ next.clock)
    (others : ∀ other ≠ id, next.times? other = ledger.times? other)
    (own : ∀ {times : Times}, next.times? id = some times → ∀ {time : Timestamp}, times.Has time →
      time ≤ next.clock ∧
        (ledger.clock < time ∨ ∃ old, ledger.times? id = some old ∧ time = old.start))
    (ending : next.committed = ledger.committed ∧
        (∀ {times : Times}, next.times? id = some times →
          times.validation = none ∧ times.finish = none) ∨
      next.committed = ledger.committed ++ [id] ∧ ∃ start validation finish,
        next.times? id = some { start, validation := some validation, finish := some finish } ∧
          start < validation ∧ validation < finish ∧ ledger.clock < validation) :
    next.Stamped := by
  have apart {rival : TxnId} (member : rival ∈ ledger.committed) : rival ≠ id :=
    fun same => uncommitted (same ▸ member)
  have listed : ledger.committed.Pairwise next.Precedes := by
    refine stamped.ordered.imp_of_mem fun {earlier later} first second precedes => ?_
    obtain ⟨start, validation, finish, times, time, found, rest⟩ := precedes
    refine ⟨start, validation, finish, times, time, ?_⟩
    rwa [others earlier (apart first), others later (apart second), and_iff_right found]
  constructor
  case bounded =>
      intro target times found time has
      by_cases self : target = id
      · subst self
        exact (own found has).1
      · rw [others target self] at found
        exact Nat.le_trans (stamped.bounded found has) clock
  case running =>
      intro target times found absent
      by_cases self : target = id
      · subst self
        rcases ending with ⟨_, unended⟩ | ⟨committed, _⟩
        · exact unended found
        · simp [committed] at absent
      · rw [others target self] at found
        refine stamped.running found fun member => absent ?_
        rcases ending with ⟨committed, _⟩ | ⟨committed, _⟩ <;> simp [committed, member]
  case finished =>
      intro target member
      have before (old : target ∈ ledger.committed) := others target (apart old) ▸
        stamped.finished target old
      rcases ending with ⟨committed, _⟩ | ⟨committed, start, validation, finish, found, order, last, _⟩
      · exact before (committed ▸ member)
      · rw [committed, List.mem_append, List.mem_singleton] at member
        rcases member with old | rfl
        · exact before old
        · exact ⟨start, validation, finish, found, order, last⟩
  case ordered =>
      rcases ending with ⟨committed, _⟩ | ⟨committed, start, validation, finish, found, _, _, late⟩
      · rw [committed]
        exact listed
      · rw [committed]
        refine List.pairwise_append.mpr ⟨listed, List.pairwise_singleton _ _, ?_⟩
        intro earlier old later new
        rw [List.mem_singleton] at new
        subst new
        obtain ⟨first, early, done, oldFound, _, order⟩ := stamped.finished earlier old
        have bound := stamped.bounded oldFound (.inr (.inr rfl))
        rw [← others earlier (apart old)] at oldFound
        exact ⟨first, early, done, _, validation, oldFound, found, rfl, by lia, by lia⟩
  case distinct =>
      intro first second times rival found rivalFound different has
      by_cases self : first = id
      · subst self
        rw [others second different.symm] at rivalFound
        obtain ⟨_, new | ⟨old, oldFound, same⟩⟩ := own found (.inl rfl)
        · have bound := stamped.bounded rivalFound has
          lia
        · exact stamped.distinct oldFound rivalFound different (same ▸ has)
      · rw [others first self] at found
        by_cases rivals : second = id
        · subst rivals
          obtain ⟨_, new | ⟨old, oldFound, same⟩⟩ := own rivalFound has
          · have bound := stamped.bounded found (.inl rfl)
            lia
          · exact stamped.distinct found oldFound different (.inl same)
        · rw [others second rivals] at rivalFound
          exact stamped.distinct found rivalFound different has

/-- The invariant depends on times, committed list and clock only. -/
theorem of_times (stamped : ledger.Stamped) (times : ∀ id, next.times? id = ledger.times? id)
    (committed : next.committed = ledger.committed) (clock : next.clock = ledger.clock) :
    next.Stamped := by
  have precedes : next.Precedes = ledger.Precedes := by
    funext earlier later
    simp only [Precedes, times]
  constructor
  case bounded =>
      intro id own found
      rw [clock]
      exact stamped.bounded ((times id).symm.trans found)
  case running =>
      intro id own found
      rw [committed]
      exact stamped.running ((times id).symm.trans found)
  case finished => simpa only [times, committed] using stamped.finished
  case ordered => simpa only [precedes, committed] using stamped.ordered
  case distinct =>
      intro id other own rival found rivalFound
      exact stamped.distinct ((times id).symm.trans found) ((times other).symm.trans rivalFound)

theorem absent_of_none (stamped : ledger.Stamped) (none : ledger.times? id = none) :
    id ∉ ledger.committed := by
  intro member
  obtain ⟨_, _, _, found, _⟩ := stamped.finished id member
  rw [none] at found
  contradiction

/-- The start of a new record is later than all previous times. -/
theorem touch (stamped : ledger.Stamped) (id : TxnId) : (ledger.touch id).2.Stamped := by
  cases found : ledger.record? id with
  | some record =>
      rw [touch_of_found found]
      exact stamped
  | none =>
      have untimed : ledger.times? id = none := by rw [times?, found, Option.map_none]
      have made : (ledger.touch id).2 =
          { ledger.put id { start := ledger.clock + 1 } with clock := ledger.clock + 1 } := by
        simp only [Ledger.touch, found]
      have timed (other : TxnId) : (ledger.touch id).2.times? other =
          if id = other then some { start := ledger.clock + 1 } else ledger.times? other := by
        rw [made]
        exact times?_put ledger id other _
      apply stamped.change (stamped.absent_of_none untimed)
      case clock =>
          rw [made]
          exact Nat.le_succ _
      case others => exact fun other different => (timed other).trans (if_neg different.symm)
      case own =>
          intro times foundTimes time has
          rw [timed, if_pos rfl, Option.some.injEq] at foundTimes
          subst foundTimes
          rcases has with rfl | ended | ended
          · rw [made]
            exact ⟨Nat.le_refl _, .inl (Nat.lt_succ_self _)⟩
          · contradiction
          · contradiction
      case ending =>
          left
          rw [made]
          refine ⟨rfl, fun foundTimes => ?_⟩
          rw [← made, timed, if_pos rfl, Option.some.injEq] at foundTimes
          subst foundTimes
          exact ⟨rfl, rfl⟩

theorem access (stamped : ledger.Stamped) (id : TxnId) (object : ObjectId) (action : Action) :
    (ledger.access id object action).Stamped := by
  refine (stamped.touch id).of_times (fun other => ?_) rfl rfl
  rw [access_eq, times?_put, AccessRecord.times_note]
  split
  · rename_i same
    rw [← same, times?, touch_self, Option.map_some]
  · rfl

/-- Removing an uncommitted record preserves the invariant. -/
theorem drop (stamped : ledger.Stamped) (uncommitted : id ∉ ledger.committed)
    (clock : ledger.clock ≤ next.clock) (committed : next.committed = ledger.committed)
    (gone : next.record? id = none)
    (others : ∀ other ≠ id, next.record? other = ledger.record? other) : next.Stamped := by
  have lost {times : Times} : next.times? id ≠ some times := by
    rw [times?, gone]
    simp
  apply stamped.change uncommitted clock
  case others => exact fun other different => congrArg _ (others other different)
  case own => exact fun found => absurd found lost
  case ending => exact .inl ⟨committed, fun found => absurd found lost⟩

theorem discard (stamped : ledger.Stamped) (id : TxnId) : (ledger.discard id).Stamped := by
  by_cases committed : id ∈ ledger.committed
  · rw [Ledger.discard, if_pos committed]
    exact stamped
  · rw [discard_of_not_mem committed]
    exact stamped.drop committed (Nat.le_refl _) rfl Std.ExtTreeMap.getElem?_erase_self
      fun other different => record?_erase ledger different

/-- A commit keeps the start and assigns the next two times as validation and finish. -/
theorem commit (stamped : ledger.Stamped) (uncommitted : id ∉ ledger.committed) {old : Times}
    (found : ledger.times? id = some old) (clock : next.clock = ledger.clock + 2)
    (committed : next.committed = ledger.committed ++ [id])
    (closed : next.times? id = some { start := old.start
                                      validation := some (ledger.clock + 1)
                                      finish := some (ledger.clock + 2) })
    (others : ∀ other ≠ id, next.times? other = ledger.times? other) : next.Stamped := by
  have bound := stamped.bounded found (.inl rfl)
  apply stamped.change uncommitted (by lia) others
  case own =>
      intro times foundTimes time has
      rw [closed, Option.some.injEq] at foundTimes
      subst foundTimes
      rcases has with rfl | validated | finished
      · exact ⟨by dsimp only; lia, .inr ⟨old, found, rfl⟩⟩
      · cases validated
        exact ⟨by lia, .inl (by lia)⟩
      · cases finished
        exact ⟨by lia, .inl (by lia)⟩
  case ending => exact .inr ⟨committed, _, _, _, closed, by lia, by lia, by lia⟩

theorem validate (stamped : ledger.Stamped) (uncommitted : id ∉ ledger.committed) :
    (ledger.validate id).2.Stamped := by
  have next := stamped.touch id
  obtain ⟨committed, _, _⟩ := ledger.touch_frame id
  rw [← committed] at uncommitted
  cases valid : (ledger.validate id).1.isValid with
  | false =>
      rw [validate_invalid valid]
      exact next.drop uncommitted (Nat.le_succ _) rfl Std.ExtTreeMap.getElem?_erase_self
        fun other different => record?_erase _ different
  | true =>
      rw [validate_valid valid]
      have found : (ledger.touch id).2.times? id = some (ledger.touch id).1.times := by
        rw [times?, touch_self, Option.map_some]
      exact next.commit uncommitted found rfl rfl ((times?_put _ id id _).trans (if_pos rfl))
        fun other different => (times?_put _ id other _).trans (if_neg different.symm)

/-- Every move preserves the invariant. -/
theorem move {engine : Engine Ledger} {past : List Event} (stamped : engine.books.Stamped)
    (agrees : engine.books.Agrees past) (chronicle : engine.Chronicle past) (move : Move) :
    (engine.after move).books.Stamped := by
  cases move with
  | begin => exact stamped
  | log id row =>
      rw [Engine.after, (engine.log_frame id row).1]
      exact stamped
  | access object id action =>
      rw [Engine.after]
      rcases access_cases chronicle.orderly object id action with ⟨_, books⟩ | ⟨_, _, books⟩
      · rw [books]
        exact stamped
      · rw [books]
        exact stamped.access id object action
  | finish id commit =>
      cases found : engine.roster.find? id with
      | none =>
          rw [Engine.after, Engine.finish_absent found]
          exact stamped
      | some entry =>
          have uncommitted := agrees.not_mem_of_live chronicle (Roster.mem_live_of_find? found)
          rw [Engine.after]
          rcases finish_cases chronicle.orderly found commit with
            ⟨_, _, books⟩ | ⟨_, books | ⟨_, books⟩⟩
          · rw [books]
            exact (stamped.validate uncommitted).discard id
          · rw [books]
            exact stamped.discard id
          · rw [books]
            exact (stamped.validate uncommitted).discard id
  | evict id =>
      cases found : engine.roster.find? id with
      | none =>
          rw [Engine.after, Engine.evict_absent found]
          exact stamped
      | some entry =>
          rw [Engine.after, Engine.evict_found found]
          exact stamped.discard id

end Stamped

variable {engine : Engine Ledger} {past : List Event} {record : AccessRecord}

theorem stamped_of_reaches (reached : (Engine.fresh : Engine Ledger).Reaches past engine) :
    engine.books.Stamped := by
  induction reached with
  | start => exact .empty
  | move reached move ih =>
      exact ih.move (agrees_of_reaches reached) (reached.chronicle Engine.fresh_orderly) move

/-- A dropped transaction has no record, because no event of it follows the drop. -/
theorem since_of_dropped (settled : Settled past) (dropped : .dropped id ∈ past) :
    since id past = [] := by
  by_contra begun
  obtain ⟨own, member, mine⟩ := exists_own_of_begun begun
  obtain ⟨before, after, rfl⟩ := List.append_of_mem dropped
  rw [List.append_cons] at member settled
  rcases mem_since_or_mem member with old | new
  · rw [since_concat_dropped] at old
    contradiction
  · have last : .dropped id ∈ before ++ [Event.dropped id] := by simp
    exact (List.pairwise_append.mp settled).2.2 _ last own new id (by simp [Event.ends]) mine

theorem not_dropped (agrees : engine.books.Agrees past) (chronicle : engine.Chronicle past)
    (found : engine.books.record? id = some record) : .dropped id ∉ past := by
  intro dropped
  rw [(agrees.kept id).mpr (since_of_dropped chronicle.settled dropped)] at found
  contradiction

/-- The object sets of a record are exactly the granted accesses of its transaction. -/
theorem granted_iff (agrees : engine.books.Agrees past) (chronicle : engine.Chronicle past)
    (found : engine.books.record? id = some record) (object : ObjectId) (action : Action) :
    object ∈ record.objects action ↔ .granted ⟨id, object, action⟩ ∈ past := by
  rw [agrees.noted found]
  exact ⟨mem_of_mem_since, fun granted =>
    mem_since granted rfl (not_dropped agrees chronicle found)⟩

/-- An uncommitted transaction with a record is live. -/
theorem live_of_running (agrees : engine.books.Agrees past) (chronicle : engine.Chronicle past)
    (found : engine.books.record? id = some record) (running : id ∉ engine.books.committed) :
    id ∈ engine.roster.live := by
  have begun : since id past ≠ [] := by
    intro empty
    rw [(agrees.kept id).mpr empty] at found
    contradiction
  obtain ⟨own, member, rfl⟩ := exists_own_of_begun begun
  rcases chronicle.resolved own (mem_of_mem_since member) with live | ⟨final, finalMember, ends⟩
  · exact live
  · have same := final.id_of_ends ends
    cases final with
    | granted access => contradiction
    | committed other =>
        rw [agrees.committed, mem_filterMap_committed?] at running
        exact absurd (same ▸ finalMember) running
    | dropped other => exact absurd (same ▸ finalMember) (not_dropped agrees chronicle found)

theorem Stamped.starts_apart {rival : AccessRecord} (stamped : engine.books.Stamped)
    (found : engine.books.record? id = some record)
    (rivalFound : engine.books.record? other = some rival) :
    (record.start = rival.start → id = other) ∧
      rival.validation ≠ some record.start ∧ rival.finish ≠ some record.start := by
  have times : engine.books.times? id = some record.times := by rw [times?, found, Option.map_some]
  have rivalTimes : engine.books.times? other = some rival.times := by
    rw [times?, rivalFound, Option.map_some]
  by_cases same : id = other
  · subst same
    cases found.symm.trans rivalFound
    by_cases committed : id ∈ engine.books.committed
    · obtain ⟨start, validation, finish, complete, early, late⟩ := stamped.finished id committed
      rw [times, Option.some.injEq] at complete
      injection complete with started validated finished
      rw [validated, finished, started, ne_eq, ne_eq, Option.some.injEq, Option.some.injEq]
      exact ⟨fun _ => rfl, by lia, by lia⟩
    · obtain ⟨unvalidated, unfinished⟩ := stamped.running times committed
      refine ⟨fun _ => rfl, ?_, ?_⟩
      · rw [show record.validation = none from unvalidated]
        simp
      · rw [show record.finish = none from unfinished]
        simp
  · have apart := stamped.distinct times rivalTimes same
    exact ⟨fun same => absurd (.inl same) apart, fun validated => apart (.inr (.inl validated)),
      fun finished => apart (.inr (.inr finished))⟩

end Ledger

/-- The ledger of an optimistic engine after any run. The committed list consists of the
transactions whose end was answered with a commit, without repetition and in order of their times:
each has a start, a later validation and a still later finish, and both precede the validation of
the next. All other records belong to live transactions and have a start only. Each record contains
exactly the granted accesses of its transaction, and no start equals a time of another record. -/
theorem ledger_in_order (calls : List Call) :
    let origin : Engine Ledger := Engine.fresh
    let history := origin.history calls
    let engine := (origin.run calls).2
    let ledger := engine.books
    ledger.committed = (calls.zip (origin.run calls).1).filterMap Call.committed? ∧
    ledger.committed.Nodup ∧
    (∀ id ∈ ledger.committed, ∃ start validation finish,
      ledger.times? id = some { start, validation := some validation, finish := some finish } ∧
        start < validation ∧ validation < finish ∧ finish ≤ ledger.clock) ∧
    ledger.committed.Pairwise ledger.Precedes ∧
    (∀ id record, ledger.record? id = some record →
      (∀ object action,
        object ∈ record.objects action ↔ .granted ⟨id, object, action⟩ ∈ history) ∧
      (id ∉ ledger.committed →
        id ∈ engine.roster.live ∧ record.validation = none ∧ record.finish = none)) ∧
    (∀ id record other rival, ledger.record? id = some record → ledger.record? other = some rival →
      (record.start = rival.start → id = other) ∧
        rival.validation ≠ some record.start ∧ rival.finish ≠ some record.start) := by
  intro origin history engine ledger
  have reached : origin.Reaches history engine := Engine.reaches_run origin calls
  have chronicle := reached.chronicle Engine.fresh_orderly
  have agrees : ledger.Agrees history := Ledger.agrees_of_reaches reached
  have stamped : ledger.Stamped := Ledger.stamped_of_reaches reached
  refine ⟨?_, ?_, fun id member => ?_, stamped.ordered, fun id record found => ⟨?_, fun running => ?_⟩,
    fun id record other rival found rivalFound => stamped.starts_apart found rivalFound⟩
  · exact agrees.committed.trans (origin.committed_history calls)
  · rw [agrees.committed]
    exact chronicle.settled.nodup_committed
  · obtain ⟨start, validation, finish, found, early, late⟩ := stamped.finished id member
    exact ⟨start, validation, finish, found, early, late, stamped.bounded found (.inr (.inr rfl))⟩
  · exact Ledger.granted_iff agrees chronicle found
  · have times : ledger.times? id = some record.times := by
      rw [Ledger.times?, found, Option.map_some]
    exact ⟨Ledger.live_of_running agrees chronicle found running, stamped.running times running⟩

end Isolation
