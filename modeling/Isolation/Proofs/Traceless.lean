import Isolation.Proofs.Refusals

/-!
Transactions that do not commit have no effect under optimistic control. Deleting the accesses of
such a transaction from a run, and turning its end into a rollback, preserves all other answers and
the committed list. The clocks of the two runs differ, but verdicts depend only on the events since
the creation of a record, and the histories agree up to grants of the deleted transaction.
-/

namespace Isolation

/-- The call without the contribution of a transaction: its accesses are deleted and its end is a
rollback. -/
def Call.without (id : TxnId) : Call → Option Call
  | .access object asker action => if asker = id then none else some (.access object asker action)
  | .accessAll objects asker action =>
      if asker = id then none else some (.accessAll objects asker action)
  | .finish ended commit => some (.finish ended (commit && ended ≠ id))
  | call => some call

/-- The answers to the calls that are not deleted. -/
def remaining (id : TxnId) (calls : List Call) (answers : List Answer) : List Answer :=
  ((calls.zip answers).filter fun pair => (pair.1.without id).isSome).map Prod.snd

def Counters.unrefused (counters : Counters) : Counters :=
  { counters with refusals := 0 }

/-- The answer with the count of refusals erased. -/
def Answer.unrefused : Answer → Answer
  | .counted counters => .counted counters.unrefused
  | answer => answer

theorem Counters.unrefused_countVerdict (counters : Counters) {verdict : Verdict}
    (nobody : verdict.victims = []) :
    (counters.countVerdict verdict).unrefused = counters.unrefused := by
  unfold countVerdict
  split
  · rfl
  · simp only [unrefused, nobody, List.length_nil, Nat.add_zero]

theorem Counters.unrefused_countBegin (counters : Counters) :
    counters.countBegin.unrefused = counters.unrefused.countBegin := rfl

theorem Counters.unrefused_countEnd (counters : Counters) (committed : Bool) :
    (counters.countEnd committed).unrefused = counters.unrefused.countEnd committed := by
  cases committed <;> rfl

/-- The event is not a grant of the transaction. -/
def Event.remains (id : TxnId) : Event → Bool
  | granted access => access.id ≠ id
  | committed _ | dropped _ => true

variable {id target : TxnId} {past : List Event}

theorem Event.remains_of_ne {event : Event} (other : event.id ≠ id) : event.remains id = true := by
  cases event with
  | granted access => exact decide_eq_true other
  | committed _ | dropped _ => rfl

section

variable {keep : Event → Bool} (own : ∀ event, event.id = id → keep event = true)
include own

theorem filter_since_eq_nil : (since id past).filter keep = [] ↔ since id past = [] := by
  constructor
  · intro none
    by_contra some
    obtain ⟨first, member, mine⟩ := exists_own_of_begun some
    exact List.ne_nil_of_mem (List.mem_filter.mpr ⟨member, own first mine⟩) none
  · intro none
    rw [none, List.filter_nil]

/-- Filtering events of other transactions commutes with `since`. -/
theorem since_filter (past : List Event) : since id (past.filter keep) =
    (since id past).filter keep := by
  induction past using List.reverseRecOn with
  | nil => rfl
  | append_singleton past last ih =>
      rw [List.filter_append, since_concat]
      cases kept : keep last with
      | false =>
          have other : last.id ≠ id := fun mine => Bool.false_ne_true (kept.symm.trans (own last mine))
          have undropped : last ≠ .dropped id := fun same => other (congrArg Event.id same)
          rw [List.filter_singleton, kept, cond_false, List.append_nil, ih, if_neg undropped]
          split
          · rename_i none
            rw [none.1, List.filter_nil]
          · rw [List.filter_append, List.filter_singleton, kept, cond_false, List.append_nil]
      | true =>
          rw [List.filter_singleton, kept, cond_true, since_concat, ih]
          simp only [filter_since_eq_nil own]
          split
          · rfl
          · split
            · rfl
            · rw [List.filter_append, List.filter_singleton, kept, cond_true]

end

theorem remains_of_own (other : target ≠ id) (event : Event) (mine : event.id = target) :
    event.remains id = true :=
  Event.remains_of_ne (mine ▸ other)

theorem since_remains (other : target ≠ id) (past : List Event) :
    since target (past.filter (Event.remains id)) = (since target past).filter (Event.remains id) :=
  since_filter (remains_of_own other) past

theorem mem_since_remains (other : target ≠ id) {event : Event} (kept : event.remains id = true) :
    event ∈ since target (past.filter (Event.remains id)) ↔ event ∈ since target past := by
  rw [since_remains other, List.mem_filter, kept]
  exact and_iff_left rfl

/-- Whether a transaction is opposed does not depend on the grants of an uncommitted one. -/
theorem unopposed_remains (other : target ≠ id) (uncommitted : .committed id ∉ past) :
    Unopposed target (past.filter (Event.remains id)) ↔ Unopposed target past := by
  have rival {rival : TxnId} :
      rival ∈ rivals target (past.filter (Event.remains id)) ↔ rival ∈ rivals target past := by
    rw [mem_rivals, mem_rivals, mem_since_remains other rfl]
  have touched {rival : TxnId} (different : rival ≠ id) (action : Action) (object : ObjectId) :
      object ∈ touched action rival (past.filter (Event.remains id)) ↔
        object ∈ touched action rival past := by
    rw [mem_touched, mem_touched, mem_since_remains different]
    exact decide_eq_true different
  have committed {rival : TxnId} (since : rival ∈ rivals target past) : rival ≠ id := by
    intro same
    subst same
    exact uncommitted (mem_of_mem_since (mem_rivals.mp since))
  constructor
  · intro apart one since object written read
    exact apart one (rival.mpr since) object ((touched (committed since) .write object).mpr written)
      ((touched other .read object).mpr read)
  · intro apart one since object written read
    have present := rival.mp since
    exact apart one present object ((touched (committed present) .write object).mp written)
      ((touched other .read object).mp read)

namespace Ledger

variable {engine other : Engine Ledger}

theorem access_eq_verdict (engine : Engine Ledger) (object : ObjectId) (target : TxnId)
    (action : Action) :
    (engine.access object target action).1 = match engine.roster.find? target with
      | none => .refused .unknown
      | some (_, txn) => if txn.isAborted then .refused .aborted else .allowed (.recorded action) := by
  cases found : engine.roster.find? target with
  | none => exact (Engine.access_absent found object action).1
  | some entry =>
      rw [(Engine.access_found found object action).1, judge_eq, judge]
      split <;> rename_i aborted <;> simp [aborted]

theorem victims_access (engine : Engine Ledger) (object : ObjectId) (target : TxnId)
    (action : Action) : (engine.access object target action).1.victims = [] := by
  rw [access_eq_verdict]
  repeat' split
  all_goals rfl

/-- The simulation relation between a run and the run without the accesses of a transaction. The
histories agree up to grants of that transaction, which has not committed. -/
structure Parallel (id : TxnId) (engine other : Engine Ledger) (past : List Event) : Prop where
  sound : Sound engine past
  sound_other : Sound other (past.filter (Event.remains id))
  undecided : engine.Undecided
  undecided_other : other.Undecided
  uncommitted : .committed id ∉ past
  roster : other.roster = engine.roster
  last : other.last = engine.last
  counters : other.counters.unrefused = engine.counters.unrefused

namespace Parallel

theorem moved (parallel : Parallel id engine other past) (move next : Move)
    (events : other.events next = (engine.events move).filter (Event.remains id))
    (uncommitted : .committed id ∉ engine.events move)
    (roster : (other.after next).roster = (engine.after move).roster)
    (last : (other.after next).last = (engine.after move).last)
    (counters : (other.after next).counters.unrefused = (engine.after move).counters.unrefused) :
    Parallel id (engine.after move) (other.after next) (past ++ engine.events move) where
  sound := parallel.sound.move move
  sound_other := by
    rw [List.filter_append, ← events]
    exact parallel.sound_other.move next
  undecided := parallel.undecided.after parallel.sound.chronicle.orderly move
  undecided_other := parallel.undecided_other.after parallel.sound_other.chronicle.orderly next
  uncommitted member := (List.mem_append.mp member).elim parallel.uncommitted uncommitted
  roster := roster
  last := last
  counters := counters

theorem find?_eq (parallel : Parallel id engine other past) (target : TxnId) :
    other.roster.find? target = engine.roster.find? target := by
  rw [parallel.roster]

theorem access_answer (parallel : Parallel id engine other past) (object : ObjectId)
    (target : TxnId) (action : Action) :
    (other.access object target action).1 = (engine.access object target action).1 := by
  rw [access_eq_verdict, access_eq_verdict, parallel.roster]

theorem access_own (parallel : Parallel id engine other past) (object : ObjectId)
    (action : Action) :
    Parallel id (engine.access object id action).2 other
      (past ++ engine.events (.access object id action)) := by
  have granted (event : Event) (member : event ∈ engine.events (.access object id action)) :
      event = .granted ⟨id, object, action⟩ := by
    simp only [Engine.events] at member
    split at member
    · exact List.mem_singleton.mp member
    · contradiction
  have gone : (engine.events (.access object id action)).filter (Event.remains id) = [] := by
    refine List.filter_eq_nil_iff.mpr fun event member => ?_
    rw [granted event member]
    simp [Event.remains]
  constructor
  case sound => exact parallel.sound.move (.access object id action)
  case sound_other =>
      rw [List.filter_append, gone, List.append_nil]
      exact parallel.sound_other
  case undecided =>
      exact parallel.undecided.after parallel.sound.chronicle.orderly (.access object id action)
  case undecided_other => exact parallel.undecided_other
  case uncommitted =>
      intro member
      rcases List.mem_append.mp member with old | new
      · exact parallel.uncommitted old
      · cases granted _ new
  case roster => rw [access_roster, parallel.roster]
  case last => rw [(engine.access_live object id action).2, parallel.last]
  case counters =>
      rw [Engine.access_counters, Counters.unrefused_countVerdict _ (victims_access _ _ _ _),
        parallel.counters]

theorem access (parallel : Parallel id engine other past) (object : ObjectId)
    (different : target ≠ id) (action : Action) :
    Parallel id (engine.access object target action).2 (other.access object target action).2
      (past ++ engine.events (.access object target action)) := by
  apply parallel.moved (.access object target action) (.access object target action)
  case events =>
      simp only [Engine.events, parallel.access_answer]
      split
      · have kept : (Event.granted ⟨target, object, action⟩).remains id = true :=
          decide_eq_true different
        rw [List.filter_singleton, kept, cond_true]
      · rfl
  case uncommitted =>
      simp only [Engine.events]
      split <;> simp
  case roster => exact (access_roster _ _ _ _).trans (parallel.roster.trans (access_roster _ _ _ _).symm)
  case last =>
      exact (other.access_live object target action).2.trans
        (parallel.last.trans (engine.access_live object target action).2.symm)
  case counters =>
      simp only [Engine.after, Engine.access_counters]
      rw [Counters.unrefused_countVerdict _ (victims_access _ _ _ _),
        Counters.unrefused_countVerdict _ (victims_access _ _ _ _), parallel.counters]

theorem begin (parallel : Parallel id engine other past) :
    Parallel id engine.begin.2 other.begin.2 (past ++ engine.events .begin) := by
  apply parallel.moved .begin .begin
  case events => rfl
  case uncommitted => exact List.not_mem_nil
  case roster => simp only [Engine.after, Engine.begin, parallel.roster, parallel.last]
  case last => simp only [Engine.after, Engine.begin, parallel.last]
  case counters =>
      simp only [Engine.after, Engine.begin, Counters.unrefused_countBegin, parallel.counters]

theorem log (parallel : Parallel id engine other past) (target : TxnId) (row : Row) :
    Parallel id (engine.log target row) (other.log target row)
      (past ++ engine.events (.log target row)) := by
  apply parallel.moved (.log target row) (.log target row)
  case events => rfl
  case uncommitted => exact List.not_mem_nil
  all_goals
    simp only [Engine.after, Engine.log, parallel.find?_eq]
    split <;> simp only [parallel.roster, parallel.last, parallel.counters]

theorem evict (parallel : Parallel id engine other past) (target : TxnId) :
    Parallel id (engine.evict target) (other.evict target)
      (past ++ engine.events (.evict target)) := by
  apply parallel.moved (.evict target) (.evict target)
  case events =>
      simp only [Engine.events, parallel.find?_eq]
      split <;> rfl
  case uncommitted =>
      simp only [Engine.events]
      split <;> simp
  all_goals
    simp only [Engine.after, Engine.evict, parallel.find?_eq]
    split <;> simp only [parallel.roster, parallel.last, parallel.counters,
      Counters.unrefused_countEnd]

theorem accept_answer (parallel : Parallel id engine other past) (different : target ≠ id)
    (live : target ∈ engine.roster.live) :
    (Discipline.accept other.books target).1 = (Discipline.accept engine.books target).1 := by
  have uncommitted := parallel.sound.agrees.not_mem_of_live parallel.sound.chronicle live
  have uncommitted_other := parallel.sound_other.agrees.not_mem_of_live
    parallel.sound_other.chronicle (parallel.roster ▸ live)
  rw [Bool.eq_iff_iff, accept_eq, accept_eq, parallel.sound_other.agrees.isValid_iff uncommitted_other,
    parallel.sound.agrees.isValid_iff uncommitted]
  exact unopposed_remains different parallel.uncommitted

theorem finish (parallel : Parallel id engine other past) (target : TxnId) (commit : Bool)
    (uncommitted : .committed id ∉ engine.events (.finish target commit)) :
    (other.finish target (commit && target ≠ id)).1 = (engine.finish target commit).1 ∧
      Parallel id (engine.finish target commit).2 (other.finish target (commit && target ≠ id)).2
        (past ++ engine.events (.finish target commit)) := by
  cases found : engine.roster.find? target with
  | none =>
      have absent : other.roster.find? target = none := by rw [parallel.find?_eq, found]
      rw [Engine.events, Engine.finish_absent found, Engine.finish_absent absent]
      exact ⟨rfl, by simpa using parallel⟩
  | some entry =>
      obtain ⟨handle, txn⟩ := entry
      have found_other : other.roster.find? target = some (handle, txn) := by
        rw [parallel.find?_eq, found]
      have eq := parallel.undecided.finish_eq found commit
      have eq_other := parallel.undecided_other.finish_eq found_other (commit && target ≠ id)
      have name := parallel.sound.chronicle.orderly.id_of_find? found
      -- Neither run commits `id`; for every other transaction the validations agree.
      have same : (commit && decide (target ≠ id) && txn.isActive &&
            (Discipline.accept other.books txn.id).1) =
          (commit && txn.isActive && (Discipline.accept engine.books txn.id).1) := by
        by_cases own : target = id
        · have failed :
              (commit && txn.isActive && (Discipline.accept engine.books txn.id).1) = false := by
            by_contra committed
            apply uncommitted
            rw [Engine.events, eq, Bool.eq_true_of_not_eq_false committed, own]
            exact List.mem_singleton_self _
          rw [failed, decide_eq_false (not_not_intro own), Bool.and_false, Bool.false_and,
            Bool.false_and]
        · rw [decide_eq_true own, Bool.and_true, name,
            parallel.accept_answer own (Roster.mem_live_of_find? found)]
      have answer : (other.finish target (commit && target ≠ id)).1 =
          (engine.finish target commit).1 := by
        rw [eq, eq_other]
        exact congrArg Except.ok same
      refine ⟨answer, parallel.moved (.finish target commit) (.finish target (commit && target ≠ id))
        ?_ uncommitted ?_ ?_ ?_⟩
      · simp only [Engine.events, answer]
        split <;> rfl
      · simp only [Engine.after, eq, eq_other, parallel.roster]
      · simp only [Engine.after, eq, eq_other, parallel.last]
      · simp only [Engine.after, eq, eq_other, same, Counters.unrefused_countEnd, parallel.counters]

theorem batch_own (parallel : Parallel id engine other past) (verdict : Verdict)
    (action : Action) (objects : List ObjectId) :
    Parallel id (Engine.accessFrom verdict engine id action objects).2 other
      (past ++ engine.eventsOf (engine.asked id action objects)) := by
  induction objects generalizing verdict engine past with
  | nil => simpa [Engine.accessFrom, Engine.asked, Engine.eventsOf] using parallel
  | cons object rest ih =>
      have next := parallel.access_own object action
      simp only [Engine.accessFrom, Engine.asked, Engine.eventsOf, Engine.after]
      rw [← List.append_assoc]
      split
      · exact ih next _
      · simpa [Engine.eventsOf] using next

theorem batch (parallel : Parallel id engine other past) (different : target ≠ id)
    (verdict : Verdict) (action : Action) (objects : List ObjectId) :
    (Engine.accessFrom verdict other target action objects).1 =
        (Engine.accessFrom verdict engine target action objects).1 ∧
      Parallel id (Engine.accessFrom verdict engine target action objects).2
        (Engine.accessFrom verdict other target action objects).2
        (past ++ engine.eventsOf (engine.asked target action objects)) := by
  induction objects generalizing verdict engine other past with
  | nil => exact ⟨rfl, by simpa [Engine.accessFrom, Engine.asked, Engine.eventsOf] using parallel⟩
  | cons object rest ih =>
      have next := parallel.access object different action
      simp only [Engine.accessFrom, Engine.asked, Engine.eventsOf, Engine.after,
        parallel.access_answer]
      rw [← List.append_assoc]
      split
      · exact ih next _
      · exact ⟨rfl, by simpa [Engine.eventsOf] using next⟩

theorem evicts (parallel : Parallel id engine other past) (ids : List TxnId) :
    Parallel id (ids.foldl Engine.evict engine) (ids.foldl Engine.evict other)
      (past ++ engine.eventsOf (ids.map .evict)) := by
  induction ids generalizing engine other past with
  | nil => simpa [Engine.eventsOf] using parallel
  | cons target rest ih =>
      rw [List.map_cons, Engine.eventsOf, ← List.append_assoc]
      exact ih (parallel.evict target)

/-- A deleted call preserves the relation, and any other call has the same answer up to the count of
refusals. -/
theorem step (parallel : Parallel id engine other past) (call : Call)
    (uncommitted : .committed id ∉ engine.eventsOf (engine.moves call)) :
    match call.without id with
    | none => Parallel id (engine.step call).2 other (past ++ engine.eventsOf (engine.moves call))
    | some next =>
        (other.step next).1.unrefused = (engine.step call).1.unrefused ∧
          Parallel id (engine.step call).2 (other.step next).2
            (past ++ engine.eventsOf (engine.moves call)) := by
  have alone (move : Move) : engine.eventsOf [move] = engine.events move := List.append_nil _
  have looked : Parallel id engine other (past ++ engine.eventsOf []) := by
    simpa [Engine.eventsOf] using parallel
  cases call with
  | begin =>
      simp only [Call.without, Engine.moves, alone]
      exact ⟨by simp only [Engine.step, answered, Engine.begin, parallel.last], parallel.begin⟩
  | access object asker action =>
      simp only [Call.without, Engine.moves, alone]
      by_cases own : asker = id
      · subst own
        rw [if_pos rfl]
        exact parallel.access_own object action
      · rw [if_neg own]
        exact ⟨by simp only [Engine.step, answered, parallel.access_answer],
          parallel.access object own action⟩
  | accessAll objects asker action =>
      simp only [Call.without, Engine.moves]
      by_cases own : asker = id
      · subst own
        rw [if_pos rfl]
        exact parallel.batch_own _ action objects
      · rw [if_neg own]
        obtain ⟨answer, next⟩ := parallel.batch own (.allowed .nothingAsked) action objects
        exact ⟨by simp only [Engine.step, answered, Engine.accessAll, answer], next⟩
  | finish ended commit =>
      simp only [Engine.moves, alone] at uncommitted ⊢
      obtain ⟨answer, next⟩ := parallel.finish ended commit uncommitted
      exact ⟨by simp only [Engine.step, answered, answer], next⟩
  | log target row =>
      simp only [Call.without, Engine.moves, alone]
      exact ⟨rfl, parallel.log target row⟩
  | shutdown =>
      refine ⟨rfl, ?_⟩
      simp only [Engine.step, Engine.shutdown, Engine.moves, parallel.roster]
      exact parallel.evicts engine.roster.ids
  | counters => exact ⟨congrArg Answer.counted parallel.counters, looked⟩
  | logged target | look target | active =>
      refine ⟨?_, looked⟩
      simp only [Engine.step, Engine.logged, Engine.status?, Engine.timestamp?, parallel.roster]

theorem run (parallel : Parallel id engine other past) (calls : List Call)
    (uncommitted : .committed id ∉ engine.history calls) :
    (other.run (calls.filterMap (Call.without id))).1.map Answer.unrefused =
        (remaining id calls (engine.run calls).1).map Answer.unrefused ∧
      Parallel id (engine.run calls).2 (other.run (calls.filterMap (Call.without id))).2
        (past ++ engine.history calls) := by
  induction calls generalizing engine other past with
  | nil => exact ⟨rfl, by simpa [Engine.history, Engine.run, runWith] using parallel⟩
  | cons call rest ih =>
      rw [Engine.history, List.mem_append, not_or] at uncommitted
      have next := parallel.step call uncommitted.1
      rw [Engine.history, ← List.append_assoc]
      cases remains : call.without id with
      | none =>
          rw [remains] at next
          rw [List.filterMap_cons_none remains]
          obtain ⟨answers, final⟩ := ih next uncommitted.2
          refine ⟨?_, final⟩
          rw [answers]
          simp [Engine.run, runWith, remaining, remains]
      | some kept =>
          rw [remains] at next
          rw [List.filterMap_cons_some remains]
          obtain ⟨answers, final⟩ := ih next.2 uncommitted.2
          refine ⟨?_, final⟩
          simp only [Engine.run, runWith, List.map_cons, remaining, List.zip_cons_cons,
            List.filter_cons, remains, Option.isSome_some, if_true, next.1]
          exact congrArg _ answers

theorem record_objects (parallel : Parallel id engine other past) (different : target ≠ id)
    (action : Action) :
    (other.books.record? target).map (·.objects action) =
      (engine.books.record? target).map (·.objects action) := by
  have kept : other.books.record? target = none ↔ engine.books.record? target = none := by
    rw [parallel.sound_other.agrees.kept, since_remains different,
      filter_since_eq_nil (remains_of_own different), parallel.sound.agrees.kept]
  cases found : engine.books.record? target with
  | none => rw [kept.mpr found]
  | some record =>
      obtain ⟨record_other, found_other⟩ : ∃ kept, other.books.record? target = some kept :=
        Option.ne_none_iff_exists'.mp fun gone => by simp [kept.mp gone] at found
      rw [found_other, Option.map_some, Option.map_some, Option.some.injEq]
      refine Std.ExtTreeSet.ext_mem fun object => ?_
      rw [parallel.sound_other.agrees.noted found_other, parallel.sound.agrees.noted found]
      exact mem_since_remains different (decide_eq_true different)

end Parallel

theorem fresh_parallel (id : TxnId) :
    Parallel id (Engine.fresh : Engine Ledger) Engine.fresh [] where
  sound := ⟨.empty Engine.fresh_orderly, .empty⟩
  sound_other := ⟨.empty Engine.fresh_orderly, .empty⟩
  undecided := Engine.fresh_undecided
  undecided_other := Engine.fresh_undecided
  uncommitted := List.not_mem_nil
  roster := rfl
  last := rfl
  counters := rfl

end Ledger

/-- Deleting the accesses of an uncommitted transaction and turning its end into a rollback, for
every run of an optimistic engine. All remaining answers agree up to the count of refusals, and the
two ledgers have the same committed list and the same object sets in the records of all other
transactions. -/
theorem uncommitted_traceless (calls : List Call) (id : TxnId) :
    let start : Engine Ledger := Engine.fresh
    let others := calls.filterMap (Call.without id)
    id ∉ (start.run calls).2.books.committed →
    (start.run others).1.map Answer.unrefused =
        (remaining id calls (start.run calls).1).map Answer.unrefused ∧
      (start.run others).2.books.committed = (start.run calls).2.books.committed ∧
      ∀ other ≠ id, ∀ action,
        ((start.run others).2.books.record? other).map (·.objects action) =
          ((start.run calls).2.books.record? other).map (·.objects action) := by
  intro start others unlisted
  have reached : start.Reaches (start.history calls) (start.run calls).2 :=
    Engine.reaches_run start calls
  have uncommitted : .committed id ∉ start.history calls := by
    rw [(Ledger.agrees_of_reaches reached).committed] at unlisted
    exact fun committed => unlisted (mem_filterMap_committed?.mpr committed)
  obtain ⟨answers, parallel⟩ := (Ledger.fresh_parallel id).run calls uncommitted
  refine ⟨answers, ?_, fun other different action => parallel.record_objects different action⟩
  rw [parallel.sound.agrees.committed, parallel.sound_other.agrees.committed, List.filterMap_filter]
  refine List.filterMap_congr fun event _ => ?_
  cases event with
  | granted access => exact ite_self none
  | committed _ | dropped _ => rfl

/-- A transaction that fails its validation is deleted from the run, together with its write of an
object that another transaction read. -/
theorem uncommitted_traceless_overtaken :
    let calls : List Call := [.begin, .begin, .begin, .access "x" 1 .read,
      .accessAll ["y", "z"] 1 .write, .access "x" 2 .write, .access "y" 3 .read, .finish 2 true,
      .finish 1 true, .finish 3 true]
    calls.filterMap (Call.without 1) = [.begin, .begin, .begin, .access "x" 2 .write,
      .access "y" 3 .read, .finish 2 true, .finish 1 false, .finish 3 true] ∧
    1 ∉ ((Engine.fresh : Engine Ledger).run calls).2.books.committed ∧
    ((Engine.fresh : Engine Ledger).run (calls.filterMap (Call.without 1))).2.books.committed =
      [2, 3] := by
  intro calls
  have unlisted : 1 ∉ ((Engine.fresh : Engine Ledger).run calls).2.books.committed := by decide
  obtain ⟨_, same, _⟩ := uncommitted_traceless calls 1 unlisted
  exact ⟨rfl, unlisted, same.trans (by decide)⟩

end Isolation
