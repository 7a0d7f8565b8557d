import Isolation.Proofs.Admission
import Isolation.Proofs.Lifecycle
import Isolation.Proofs.Victims

/-!
Effects of refused and failed calls. A refused access changes the count of refusals, the statuses of
the transactions that it aborts, and at most adds an empty entry to the lock table. Failed calls of
`begin` and `finish`, rows for transactions that are not live, and calls to a controller that is not
started change nothing.
-/

namespace Isolation

theorem Status.rolledBack_of_isRunning {status : Status} (running : status.isRunning = true) :
    status.rolledBack = .aborted := by
  cases status <;> first | rfl | contradiction

/-- The transaction that a timestamp engine aborts with a refusal. -/
def Refusal.punished (id : TxnId) : Refusal → List TxnId
  | late _ => [id]
  | _ => []

theorem Counters.countVerdict_refused (counters : Counters) (refusal : Refusal) :
    counters.countVerdict (.refused refusal) =
      { counters with
        refusals := counters.refusals + 1
        wounds := counters.wounds + (Verdict.refused refusal).victims.length } := rfl

namespace Transactions

/-- The array in which the transactions with the given names have status `aborted`. -/
def struck (made : Transactions) (ids : List TxnId) : Transactions :=
  made.map fun txn => if txn.id ∈ ids then { txn with status := .aborted } else txn

@[simp] theorem struck_nil (made : Transactions) : made.struck [] = made := by
  simp [struck]

theorem eq_struck {made next : Transactions} {ids : List TxnId} {hit : Handle → Prop}
    [DecidablePred hit]
    (back : ∀ handle, next[handle]? =
      if hit handle then made[handle]?.map Transaction.forceAbort else made[handle]?)
    (struck : ∀ handle txn, made[handle]? = some txn →
      (hit handle ↔ txn.id ∈ ids) ∧ (hit handle → txn.status.rolledBack = .aborted)) :
    next = made.struck ids := by
  refine Array.ext_getElem? fun handle => ?_
  rw [back, Transactions.struck, Array.getElem?_map]
  cases present : made[handle]? with
  | none => simp
  | some txn =>
      obtain ⟨named, aborted⟩ := struck handle txn present
      rw [Option.map_some, Option.map_some]
      by_cases here : hit handle
      · rw [if_pos here, if_pos (named.mp here), Transaction.forceAbort_eq, aborted here]
      · rw [if_neg here, if_neg fun member => here (named.mpr member)]

end Transactions

/-- The tables agree except for an empty entry of an object that had none. -/
def LockTable.Opened (table next : LockTable) (object : ObjectId) : Prop :=
  ∀ place, next.entries[place]? = table.entries[place]? ∨
    (place = object ∧ table.entries[place]? = none ∧ next.entries[place]? = some {})

theorem LockTable.opened_put (table : LockTable) (object : ObjectId) :
    table.Opened (table.put object (table.entry object)) object := by
  intro place
  rw [put, Std.ExtTreeMap.getElem?_insert]
  split
  · rename_i same
    cases Std.LawfulEqCmp.compare_eq_iff_eq.mp same
    rw [entry]
    cases known : table.entries[object]? with
    | none => exact .inr ⟨rfl, rfl, rfl⟩
    | some entry => exact .inl rfl
  · exact .inl rfl

namespace Engine

variable {β : Type} {engine next : Engine β} {id : TxnId} {object : ObjectId} {action : Action}

/-- The effect of a refused access on an engine: the counters change by one refusal and the given
number of wounds, and the statuses of the struck transactions become `aborted`. -/
structure TurnsAway (engine next : Engine β) (struck : List TxnId) (wounds : Nat) : Prop where
  live : next.roster.live = engine.roster.live
  last : next.last = engine.last
  made : next.roster.made = engine.roster.made.struck struck
  counters : next.counters = { engine.counters with
    refusals := engine.counters.refusals + 1
    wounds := engine.counters.wounds + wounds }

theorem turnsAway_refuse (engine : Engine β) : engine.TurnsAway engine.refuse [] 0 where
  live := rfl
  last := rfl
  made := (Transactions.struck_nil _).symm
  counters := rfl

variable [Discipline β]

theorem turnsAway_of_made {refusal : Refusal} {struck : List TxnId}
    (refused : (engine.access object id action).1 = .refused refusal)
    (made : (engine.access object id action).2.roster.made = engine.roster.made.struck struck) :
    engine.TurnsAway (engine.access object id action).2 struck
      (Verdict.refused refusal).victims.length where
  live := (engine.access_live object id action).1
  last := (engine.access_live object id action).2
  made := made
  counters := by rw [access_counters, refused, Counters.countVerdict_refused]

/-- An access of a transaction that is not active changes nothing but the count of refusals. -/
theorem Undecided.access_of_idle [Discipline.RefusesAborted β] (undecided : engine.Undecided)
    (idle : engine.status? id ≠ some .active) (object : ObjectId) (action : Action) :
    ∃ refusal, (refusal = .unknown ∨ refusal = .aborted) ∧
      engine.access object id action = (.refused refusal, engine.refuse) := by
  cases found : engine.roster.find? id with
  | none => exact ⟨.unknown, .inl rfl, by simp only [access, found, refuse]⟩
  | some entry =>
      obtain ⟨handle, txn⟩ := entry
      rw [status?_of_find? found, ne_eq, Option.some.injEq] at idle
      have aborted := (undecided.status_of_find? found).resolve_left idle
      refine ⟨.aborted, .inr rfl, access_of_aborted found ?_ object action⟩
      rw [Transaction.isAborted, aborted]
      rfl

end Engine

namespace Locking

open LockTable

variable {engine : Engine Locking} {past : List Event} {id : TxnId} {object : ObjectId}
  {action : Action}

theorem made_of_refused (sound : Sound engine past) (active : engine.status? id = some .active)
    (refused : (engine.access object id action).1.isAllowed = false) :
    (engine.access object id action).2.roster.made =
      engine.roster.made.struck (engine.access object id action).1.victims := by
  have orderly := sound.chronicle.orderly
  obtain ⟨handle, txn, found, running⟩ := Engine.find?_of_active active
  obtain ⟨allowed, _, made⟩ := access_active found running object action
  rw [victims_of_refused orderly active refused]
  rw [allowed] at refused
  rw [acquire_made _ _ _ (Roster.find?_eq_some.mp found).2, if_pos ⟨running, refused⟩,
    orderly.id_of_find? found, age_of_find? orderly found] at made
  refine Transactions.eq_struck (fun place => by rw [made]; exact Transactions.getElem?_wound _ _ _)
    fun place victim present => ?_
  have name : victim.id = place + 1 := congrArg Prod.fst (orderly.identity_of_made present)
  have seated {holder : Holder} (member : holder ∈ (conflicting (engine.books.table.holders object)
      id (modeFor action)).filter (isVictim engine.roster.made id)) :
      holder.handle + 1 = holder.id := by
    rw [List.mem_filter, mem_conflicting] at member
    exact (orderly.seated (sound.recorded.seated orderly member.1.1)).1
  simp only [List.mem_map]
  constructor
  · constructor
    · intro hit
      obtain ⟨holder, member, rfl⟩ := hit
      exact ⟨holder, member, (seated member).symm.trans name.symm⟩
    · intro hit
      obtain ⟨holder, member, same⟩ := hit
      exact ⟨holder, member, Nat.succ.inj ((seated member).trans (same.trans name))⟩
  · intro hit
    obtain ⟨holder, member, rfl⟩ := hit
    have wounded := (List.mem_filter.mp member).2
    rw [isVictim, present, Option.any_some, Bool.and_eq_true] at wounded
    exact Status.rolledBack_of_isRunning wounded.2

theorem books_of_refused (active : engine.status? id = some .active)
    (refused : (engine.access object id action).1.isAllowed = false) :
    engine.books.table.Opened (engine.access object id action).2.books.table object ∧
      (engine.access object id action).2.books.recovery = engine.books.recovery := by
  obtain ⟨handle, txn, found, running⟩ := Engine.find?_of_active active
  obtain ⟨allowed, table, _⟩ := access_active found running object action
  rw [allowed] at refused
  constructor
  · rw [table]
    rcases acquire_cases engine.books.table object (modeFor action)
      (Roster.find?_eq_some.mp found).2 with ⟨_, left⟩ | ⟨granted, _⟩
    · rw [left]
      exact engine.books.table.opened_put object
    · rw [granted] at refused
      contradiction
  · simp only [Engine.access, found, judge_eq, judge, running, if_true]

end Locking

theorem Watermarks.modify_eq_struck {engine : Engine Watermarks} {id : TxnId} {handle : Handle}
    {txn : Transaction} (orderly : engine.Orderly)
    (found : engine.roster.find? id = some (handle, txn)) (active : txn.status = .active) :
    engine.roster.made.modify handle Transaction.forceAbort = engine.roster.made.struck [id] := by
  obtain ⟨seat, own⟩ := Roster.find?_eq_some.mp found
  have place := (orderly.seated seat).1
  refine Transactions.eq_struck (fun _ => Array.getElem?_modify) fun index other present => ⟨?_, ?_⟩
  · have name : other.id = index + 1 := congrArg Prod.fst (orderly.identity_of_made present)
    rw [List.mem_singleton]
    lia
  · rintro rfl
    rw [own, Option.some.injEq] at present
    rw [← present, active]
    rfl

namespace Running

variable {running : Running} {asked : List Access} {id : TxnId} {object : ObjectId} {action : Action}
  {refusal : Refusal}

/-- The effect of a refused access under each discipline. Locking strikes exactly the younger active
blockers of the requester, timestamp ordering the late requester, and validation nobody. -/
def TurnsAway (running next : Running) (object : ObjectId) (id : TxnId) (action : Action)
    (refusal : Refusal) : Prop :=
  match running, next with
  | lock engine, lock next =>
      let victims := (Verdict.refused refusal).victims
      engine.TurnsAway next victims victims.length ∧ victims.Nodup ∧
        (∀ other, other ∈ victims ↔ engine.status? id = some .active ∧
          other ∈ Locking.blockers engine object id action ∧ id < other ∧
          engine.status? other = some .active) ∧
        engine.books.table.Opened next.books.table object ∧
        next.books.recovery = engine.books.recovery
  | timestamp engine, timestamp next =>
      engine.TurnsAway next (refusal.punished id) 0 ∧ next.books = engine.books
  | validation engine, validation next =>
      engine.TurnsAway next [] 0 ∧ next.books = engine.books
  | _, _ => False

/-- A refusal of a requester that is not active satisfies `TurnsAway` under each discipline. -/
theorem turnsAway_of_idle (undecided : running.Holds fun engine => engine.Undecided)
    (idle : (running.ask fun engine => engine.status? id) ≠ some .active)
    (refused : (running.ask fun engine => (engine.access object id action).1) = .refused refusal) :
    running.TurnsAway (running.change fun engine => (engine.access object id action).2) object id
      action refusal := by
  cases running <;>
    obtain ⟨cause, which, answer⟩ := Engine.Undecided.access_of_idle undecided idle object action <;>
    rw [ask, answer, Verdict.refused.injEq] at refused <;>
    rw [refused] at which answer <;>
    rw [change, answer]
  case lock engine =>
      have nobody : (Verdict.refused refusal).victims = [] := by rcases which with rfl | rfl <;> rfl
      simp only [TurnsAway, nobody]
      exact ⟨engine.turnsAway_refuse, .nil,
        fun other => iff_of_false List.not_mem_nil fun wounded => idle wounded.1, fun _ => .inl rfl, rfl⟩
  case timestamp engine =>
      have nobody : refusal.punished id = [] := by rcases which with rfl | rfl <;> rfl
      simp only [TurnsAway, nobody]
      exact ⟨engine.turnsAway_refuse, rfl⟩
  case validation engine => exact ⟨engine.turnsAway_refuse, rfl⟩

theorem lock_turnsAway {engine : Engine Locking} {past : List Event}
    (sound : Locking.Sound engine past) (active : engine.status? id = some .active)
    (refused : (engine.access object id action).1 = .refused refusal) :
    (lock engine).TurnsAway (lock (engine.access object id action).2) object id action refusal := by
  have stopped : (engine.access object id action).1.isAllowed = false := congrArg _ refused
  have made := Locking.made_of_refused sound active stopped
  have names := Locking.names_of_refused sound active stopped
  rw [refused] at made names
  refine ⟨Engine.turnsAway_of_made refused made, names.distinct, fun other => ?_,
    Locking.books_of_refused active stopped⟩
  have wounded : other ∈ (engine.access object id action).1.victims ↔ _ :=
    Locking.mem_victims_of_refused sound active stopped
  rw [refused] at wounded
  rw [wounded]
  exact (and_iff_right active).symm

theorem timestamp_turnsAway {engine : Engine Watermarks} (orderly : engine.Orderly)
    (active : engine.status? id = some .active)
    (refused : (engine.access object id action).1 = .refused refusal) :
    (timestamp engine).TurnsAway (timestamp (engine.access object id action).2) object id action
      refusal := by
  obtain ⟨handle, txn, found, running⟩ := Engine.find?_of_active active
  have judged := Watermarks.access_of_running orderly found (isAborted_of_isActive running) object action
  cases late : (engine.books.of object).violation? action id with
  | none =>
      rw [judged, late] at refused
      contradiction
  | some violation =>
      simp only [late] at judged
      rw [judged, Verdict.refused.injEq] at refused
      subst refused
      refine ⟨Engine.turnsAway_of_made (congrArg Prod.fst judged) ?_, congrArg (·.2.books) judged⟩
      rw [judged]
      exact Watermarks.modify_eq_struck orderly found (of_decide_eq_true running)

theorem turnsAway (accounted : running.Holds (Engine.Accounted asked))
    (undecided : running.Holds fun engine => engine.Undecided)
    (refused : (running.ask fun engine => (engine.access object id action).1) = .refused refusal) :
    running.TurnsAway (running.change fun engine => (engine.access object id action).2) object id
      action refusal := by
  by_cases active : (running.ask fun engine => engine.status? id) = some .active
  · cases running <;> obtain ⟨past, sound, -⟩ := accounted
    case lock engine => exact lock_turnsAway sound active refused
    case timestamp engine => exact timestamp_turnsAway sound.chronicle.orderly active refused
    case validation engine =>
        have allowed : (engine.access object id action).1.isAllowed = true :=
          Ledger.isAllowed_of_active active
        rw [ask] at refused
        rw [refused] at allowed
        contradiction
  · exact turnsAway_of_idle undecided active refused

end Running

namespace Controller

variable {controller : Controller} {id : TxnId} {object : ObjectId} {action : Action}
  {refusal : Refusal}

theorem access_refused (sound : controller.Sound)
    (refused : (controller.access object id action).1 = .refused refusal) :
    ∃ next, (controller.access object id action).2 = { controller with running := next } ∧
      if controller.started then controller.running.TurnsAway next object id action refusal
      else next = controller.running := by
  obtain ⟨asked, accounted⟩ := sound.accounted
  by_cases started : controller.started = true
  · simp only [access, if_pos started, Running.act_eq] at refused ⊢
    exact ⟨_, rfl, Running.turnsAway accounted.engine sound.undecided refused⟩
  · have same : (controller.access object id action).2 = controller := by simp [access, started]
    simp only [if_neg started]
    exact ⟨controller.running, same, rfl⟩

theorem finish_failed (sound : controller.Sound) {commit : Bool} {error : Error}
    (failed : (controller.finish id commit).1 = .error error) :
    (controller.finish id commit).2 = controller := by
  by_cases live : id ∈ controller.active
  · obtain ⟨committed, ended, _⟩ := sound.exists_ended live commit
    rw [ended] at failed
    contradiction
  · rw [(unaware_of_gone live).finish]

theorem begin_failed {error : Error} (failed : controller.begin.1 = .error error) :
    controller.begin.2 = controller := by
  cases started : controller.started with
  | true =>
      rw [begin_answer started] at failed
      contradiction
  | false => simp [begin, started]

end Controller

/-- The frame of refused and failed calls, after any controller run. A refused access satisfies
`TurnsAway` if the controller is started and changes nothing otherwise. A failed `begin` or `finish`
is the identity. For a transaction that is not live, logging is the identity and `finish` fails. A
controller that is not started is changed by no call except `shutdown`. -/
theorem turned_away_inert (algorithm : Algorithm) (recovery : Option RecoveryLog)
    (calls : List Controller.Call) :
    let controller := ((Controller.ofAlgorithm algorithm recovery).run calls).2
    (∀ object id action refusal, (controller.access object id action).1 = .refused refusal →
      ∃ next, (controller.access object id action).2 = { controller with running := next } ∧
        if controller.started then controller.running.TurnsAway next object id action refusal
        else next = controller.running) ∧
    (∀ error, controller.begin.1 = .error error → controller.begin.2 = controller) ∧
    (∀ id commit error, (controller.finish id commit).1 = .error error →
      (controller.finish id commit).2 = controller) ∧
    (∀ id ∉ controller.active, (∀ row, controller.log id row = controller) ∧
      ∀ commit, ∃ error, (controller.finish id commit).1 = .error error) ∧
    (controller.started = false → ∀ call, call ≠ .shutdown →
      (controller.step (.call call)).2 = controller) := by
  intro controller
  have sound : controller.Sound := (Controller.Sound.ofAlgorithm algorithm recovery).run calls
  refine ⟨fun _ _ _ _ refused => Controller.access_refused sound refused,
    fun _ failed => Controller.begin_failed failed,
    fun _ _ _ failed => Controller.finish_failed sound failed, fun id gone => ?_,
    fun idle call other => (Controller.step_idle idle call).resolve_right other⟩
  have unaware := Controller.unaware_of_gone gone
  exact ⟨unaware.log, fun commit => ⟨_, congrArg Prod.fst (unaware.finish commit)⟩⟩

end Isolation
