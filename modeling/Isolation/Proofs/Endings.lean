import Isolation.Proofs.Counting
import Isolation.Proofs.Deeds

/-!
The departures from an engine and their counters, in runs with operations on handles. A shutdown
counts every live transaction. `finish` counts a transaction exactly if it can be moved to
`terminated`; a commit request for a partially committed transaction removes it from the roster
without counting it.
-/

namespace Isolation

namespace Transaction

variable {txn : Transaction} {commit : Bool}

/-- The statuses from which `conclude` succeeds: `active`, `failed` and `aborted` for a commit
request, all but `terminated` for a rollback request. -/
def canEnd (txn : Transaction) (commit : Bool) : Bool :=
  txn.isActive || txn.isAborted || (!commit && txn.status ≠ .terminated)

/-- The first illegal move of a `conclude` that fails. -/
def firstMove (commit : Bool) : Status :=
  if commit then .partiallyCommitted else .terminated

end Transaction

/-- A transaction that leaves the roster, with the counter that is incremented: committed, aborted
or none. -/
abbrev Departure := TxnId × Option Bool

theorem length_departures (past : List Departure) :
    past.length = past.countP (·.2 = some true) + past.countP (·.2 = some false) +
      past.countP (·.2 = none) := by
  induction past with
  | nil => rfl
  | cons departure rest ih =>
      obtain ⟨id, counted⟩ := departure
      rcases counted with - | - | - <;>
        simp only [List.length_cons, ih, List.countP_cons, reduceCtorEq, decide_true, decide_false,
          if_true, Bool.false_eq_true, if_false, Option.some.injEq, Bool.true_eq_false] <;>
        omega

namespace Engine

variable {β : Type} [Discipline β] {engine next : Engine β} {past : List Departure} {id : TxnId}
  {handle : Handle} {txn : Transaction} {commit : Bool}

theorem conclude_of_canEnd (books : β) (ends : txn.canEnd commit = true) :
    ∃ committed, (conclude books txn commit).outcome = .ok committed ∧
      (conclude books txn commit).txn = { txn with status := .terminated } := by
  by_cases undecided : txn.status = .active ∨ txn.status = .aborted
  case pos =>
      obtain ⟨outcome, left, _⟩ := conclude_of_undecided books undecided commit
      exact ⟨_, outcome, left⟩
  case neg =>
      by_cases aborted : txn.isAborted = true
      case pos =>
          obtain ⟨outcome, left, _⟩ := conclude_of_aborted books aborted commit
          exact ⟨false, outcome, left⟩
      case neg =>
          have idle : txn.isActive = false := decide_eq_false fun active => undecided (.inl active)
          simp only [Transaction.canEnd, idle, Bool.eq_false_iff.mpr aborted, Bool.false_or,
            Bool.and_eq_true, Bool.not_eq_true', decide_eq_true_eq] at ends
          obtain ⟨rfl, standing⟩ := ends
          have standing : txn.course.txn.status ≠ .terminated := standing
          obtain ⟨outcome, left⟩ := rollBack_of_standing books standing
          rw [conclude, Bool.not_false, Bool.true_or, if_pos rfl]
          exact ⟨false, outcome, left⟩

theorem conclude_of_stuck (books : β) (stuck : txn.canEnd commit = false) :
    conclude books txn commit =
      { outcome := .error (.illegal txn.id txn.status (Transaction.firstMove commit))
        course := txn.course, books } := by
  simp only [Transaction.canEnd, Bool.or_eq_false_iff] at stuck
  obtain ⟨⟨idle, running⟩, stands⟩ := stuck
  cases commit with
  | true =>
      rw [conclude_running books running, idle, if_neg Bool.false_ne_true]
      rfl
  | false =>
      have ended : txn.status = .terminated := by simpa using stands
      obtain ⟨name, status, timestamp, log⟩ := txn
      subst ended
      rfl

theorem finish_of_canEnd (found : engine.roster.find? id = some (handle, txn))
    (ends : txn.canEnd commit = true) :
    ∃ committed, (engine.finish id commit).1 = .ok committed ∧
      (engine.finish id commit).2.counters = engine.counters.countEnd committed ∧
      (engine.finish id commit).2.roster =
        (engine.roster.put handle { txn with status := .terminated }).remove id := by
  obtain ⟨committed, outcome, ended⟩ := conclude_of_canEnd engine.books ends
  refine ⟨committed, ?_⟩
  simp only [finish, found, outcome, ended, and_self]

theorem finish_of_stuck (found : engine.roster.find? id = some (handle, txn))
    (stuck : txn.canEnd commit = false) :
    (engine.finish id commit).1 =
        .error (.invalidTransition (.illegal txn.id txn.status (Transaction.firstMove commit))) ∧
      (engine.finish id commit).2.counters = engine.counters ∧
      (engine.finish id commit).2.roster = (engine.roster.put handle txn).remove id := by
  simp only [finish, found, conclude_of_stuck engine.books stuck, Ending.txn, Transaction.course,
    and_self]

omit [Discipline β] in
theorem touch_counters (engine : Engine β) (place : Handle) (touch : Transaction.Touch) :
    (engine.touch place touch).2.counters = engine.counters := by
  unfold Engine.touch
  split
  · rfl
  · split <;> rfl

/-- The departures of a call. A shutdown removes every live transaction and counts as committed
those whose status is `committed`. -/
def leaving (engine : Engine β) : Call → List Departure
  | .finish id commit =>
      if id ∈ engine.roster.ids then [(id, (engine.finish id commit).1.toOption)] else []
  | .shutdown => engine.roster.ids.map fun id => (id, some (engine.status? id = some .committed))
  | _ => []

/-- The invariant that relates the counters and the roster to the departures so far. -/
structure Balanced (engine : Engine β) (past : List Departure) : Prop where
  begun : engine.counters.begun = engine.last
  committed : engine.counters.committed = past.countP (·.2 = some true)
  aborted : engine.counters.aborted = past.countP (·.2 = some false)
  everyone : (List.range' 1 engine.last).Perm (past.map Prod.fst ++ engine.roster.ids)

namespace Balanced

omit [Discipline β] in
theorem stay (balanced : engine.Balanced past) (live : next.roster.live = engine.roster.live)
    (last : next.last = engine.last) (begun : next.counters.begun = engine.counters.begun)
    (committed : next.counters.committed = engine.counters.committed)
    (aborted : next.counters.aborted = engine.counters.aborted) : next.Balanced past where
  begun := by rw [begun, last, balanced.begun]
  committed := committed.trans balanced.committed
  aborted := aborted.trans balanced.aborted
  everyone := by
    rw [last, Roster.ids, live]
    exact balanced.everyone

omit [Discipline β] in
theorem leave (balanced : engine.Balanced past) (here : id ∈ engine.roster.ids)
    (live : next.roster.live = engine.roster.live.erase id) (last : next.last = engine.last)
    (counted : Option Bool)
    (counters : next.counters = counted.elim engine.counters engine.counters.countEnd) :
    next.Balanced (past ++ [(id, counted)]) := by
  have distinct : engine.roster.ids.Nodup := engine.roster.ids_pairwise.imp Nat.ne_of_lt
  have remain : next.roster.ids = engine.roster.ids.filter (some id ≠ some ·) := by
    refine List.Pairwise.eq_of_mem_iff (Roster.ids_pairwise _) (engine.roster.ids_pairwise.filter _)
      fun {other} => ?_
    rw [Roster.mem_ids, live, List.mem_filter, Roster.mem_ids]
    simp [and_comm]
  constructor
  case begun =>
      rw [counters, last, ← balanced.begun]
      rcases counted with - | - | - <;> rfl
  case committed =>
      rw [counters, List.countP_append, ← balanced.committed]
      rcases counted with - | - | - <;> rfl
  case aborted =>
      rw [counters, List.countP_append, ← balanced.aborted]
      rcases counted with - | - | - <;> rfl
  case everyone =>
      have present (value : TxnId) (same : some id = some value) : value ∈ engine.roster.ids :=
        Option.some.inj same ▸ here
      have split := perm_extract distinct present
      rw [last, List.map_append, remain, List.append_assoc]
      exact balanced.everyone.trans (split.append_left _)

theorem begin (balanced : engine.Balanced past) (orderly : engine.Orderly) :
    engine.begin.2.Balanced past where
  begun := congrArg (· + 1) balanced.begun
  committed := balanced.committed
  aborted := balanced.aborted
  everyone := by
    have joined : engine.begin.2.roster.ids = engine.roster.ids ++ [engine.last + 1] := by
      have above : ∀ id ∈ engine.roster.ids, id < engine.last + 1 := fun id live =>
        Nat.lt_succ_of_le (orderly.bounds_of_live (Roster.mem_ids.mp live)).2
      refine List.Pairwise.eq_of_mem_iff (Roster.ids_pairwise _)
        (List.pairwise_append.mpr ⟨engine.roster.ids_pairwise, List.pairwise_singleton _ _,
          fun id live new same => List.mem_singleton.mp same ▸ above id live⟩) fun {id} => ?_
      rw [List.mem_append, List.mem_singleton, Roster.mem_ids, Roster.mem_ids]
      change id ∈ engine.roster.live.insert (engine.last + 1) engine.roster.made.size ↔ _
      rw [Std.ExtTreeMap.mem_insert, Std.LawfulEqCmp.compare_eq_iff_eq, or_comm, eq_comm]
    have last : engine.begin.2.last = engine.last + 1 := rfl
    rw [last, joined, List.range'_concat, ← List.append_assoc, Nat.one_mul, Nat.add_comm 1]
    exact balanced.everyone.append_right _

theorem access (balanced : engine.Balanced past) (object : ObjectId) (id : TxnId) (action : Action) :
    (engine.access object id action).2.Balanced past := by
  obtain ⟨live, last⟩ := engine.access_live object id action
  have counters := engine.access_counters object id action
  refine balanced.stay live last ?_ ?_ ?_ <;>
    rw [counters, Counters.countVerdict] <;>
    split <;> rfl

theorem accessFrom (balanced : engine.Balanced past) (verdict : Verdict) (id : TxnId) (action : Action)
    (objects : List ObjectId) : (accessFrom verdict engine id action objects).2.Balanced past := by
  induction objects generalizing engine verdict with
  | nil => exact balanced
  | cons object rest ih =>
      simp only [Engine.accessFrom]
      split
      · exact ih (balanced.access object id action) _
      · exact balanced.access object id action

theorem finish (balanced : engine.Balanced past) (orderly : engine.Orderly) (id : TxnId)
    (commit : Bool) :
    (engine.finish id commit).2.Balanced (past ++ engine.leaving (.finish id commit)) := by
  simp only [leaving]
  split
  · rename_i here
    obtain ⟨handle, txn, found⟩ := orderly.exists_find? (Roster.mem_ids.mp here)
    obtain ⟨roster, last⟩ := finish_roster found commit
    refine balanced.leave here (congrArg Roster.live roster) last _ ?_
    cases ends : txn.canEnd commit with
    | true =>
        obtain ⟨committed, outcome, counters, _⟩ := finish_of_canEnd found ends
        rw [counters, outcome]
        rfl
    | false =>
        obtain ⟨outcome, counters, _⟩ := finish_of_stuck found ends
        rw [counters, outcome]
        rfl
  · rename_i gone
    have absent : engine.roster.find? id = none := by
      cases found : engine.roster.find? id with
      | none => rfl
      | some entry => exact absurd (Roster.mem_ids.mpr (Roster.mem_live_of_find? found)) gone
    rw [finish_absent absent, List.append_nil]
    exact balanced

theorem evict (balanced : engine.Balanced past) (orderly : engine.Orderly)
    (here : id ∈ engine.roster.ids) :
    (engine.evict id).Balanced (past ++ [(id, some (decide (engine.status? id = some .committed)))]) := by
  obtain ⟨handle, txn, found⟩ := orderly.exists_find? (Roster.mem_ids.mp here)
  have counted : txn.isCommitted = decide (engine.status? id = some .committed) := by
    rw [status?_of_find? found, Transaction.isCommitted]
    simp
  rw [← counted, evict_found found]
  refine balanced.leave here ?_ ?_ (some txn.isCommitted) ?_ <;> rfl

theorem evicts [Discipline.PreservesIdentities β] (balanced : engine.Balanced past)
    (orderly : engine.Orderly)
    {ids : List TxnId} (distinct : ids.Nodup) (live : ∀ id ∈ ids, id ∈ engine.roster.ids) :
    (ids.foldl Engine.evict engine).Balanced
      (past ++ ids.map fun id => (id, some (decide (engine.status? id = some .committed)))) := by
  refine orderly.evicts_induction (P := fun engine ids => ∀ past, engine.Balanced past →
    (ids.foldl Engine.evict engine).Balanced
      (past ++ ids.map fun id => (id, some (decide (engine.status? id = some .committed)))))
    distinct (fun id member => Roster.mem_ids.mp (live id member)) (fun engine past balanced => ?_)
    ?_ past balanced
  · simpa using balanced
  · intro engine id rest orderly here first ih past balanced
    have whole := ih _ (balanced.evict orderly (Roster.mem_ids.mpr here))
    -- The statuses of the remaining transactions are unchanged.
    have standing : rest.map (fun other =>
          (other, some (decide ((engine.evict id).status? other = some .committed)))) =
        rest.map fun other => (other, some (decide (engine.status? other = some .committed))) :=
      List.map_congr_left fun other member => by
        have different : other ≠ id := fun same => first (same ▸ member)
        rw [orderly.status?_evict different]
    rw [standing, List.append_assoc] at whole
    exact whole

theorem step [Discipline.PreservesIdentities β] (balanced : engine.Balanced past)
    (orderly : engine.Orderly)
    (call : Call) : (engine.step call).2.Balanced (past ++ engine.leaving call) := by
  have alone {next : Engine β} (same : next.Balanced past) : next.Balanced (past ++ []) := by
    rwa [List.append_nil]
  cases call with
  | begin => exact alone (balanced.begin orderly)
  | access object id action => exact alone (balanced.access object id action)
  | accessAll objects id action =>
      exact alone (balanced.accessFrom (.allowed .nothingAsked) id action objects)
  | finish id commit => exact balanced.finish orderly id commit
  | log id row =>
      obtain ⟨_, live, last⟩ := engine.log_frame id row
      have counters := engine.log_counters id row
      exact alone (balanced.stay live last (congrArg _ counters) (congrArg _ counters)
        (congrArg _ counters))
  | shutdown =>
      exact balanced.evicts orderly (engine.roster.ids_pairwise.imp Nat.ne_of_lt) fun _ => id
  | logged _ | look _ | active | counters => exact alone balanced

omit [Discipline β] in
theorem touch (balanced : engine.Balanced past) (place : Handle) (touch : Transaction.Touch) :
    (engine.touch place touch).2.Balanced past := by
  obtain ⟨live, last, _⟩ := engine.touch_frame place touch
  have counters := engine.touch_counters place touch
  exact balanced.stay live last (congrArg _ counters) (congrArg _ counters) (congrArg _ counters)

omit [Discipline β] in
/-- Conservation of transactions: the departed and the live ones are distinct, and the begun ones
are counted as committed, counted as aborted, live, or departed without a count. -/
theorem account (balanced : engine.Balanced past) :
    (past.map Prod.fst ++ engine.roster.ids).Nodup ∧
      engine.counters.begun = engine.counters.committed + engine.counters.aborted +
        engine.roster.ids.length + past.countP (·.2 = none) := by
  have whole := balanced.everyone.length_eq
  rw [List.length_range', List.length_append, List.length_map, length_departures] at whole
  refine ⟨balanced.everyone.nodup_iff.mp List.nodup_range', ?_⟩
  rw [balanced.begun, balanced.committed, balanced.aborted]
  omega

end Balanced

/-- The specification of `finish` for a live transaction, by `canEnd`. It is removed from the roster
in both cases. -/
theorem Orderly.finish_ends (orderly : engine.Orderly) (seat : engine.roster.handle? id = some handle)
    (present : engine.roster.made[handle]? = some txn) (commit : Bool) :
    let ended := engine.finish id commit
    ended.2.roster.handle? id = none ∧
      if txn.canEnd commit then
        ∃ committed, ended.1 = .ok committed ∧
          ended.2.roster.made[handle]? = some { txn with status := .terminated } ∧
          ended.2.counters = engine.counters.countEnd committed
      else
        ended.1 = .error (.invalidTransition
            (.illegal id txn.status (Transaction.firstMove commit))) ∧
          ended.2.roster.made[handle]? = some txn ∧ ended.2.counters = engine.counters := by
  intro ended
  have found := Roster.find?_eq_some.mpr ⟨seat, present⟩
  have inBounds := (Array.getElem?_eq_some_iff.mp present).1
  have gone (left : Transaction) : ((engine.roster.put handle left).remove id).handle? id = none :=
    Std.ExtTreeMap.getElem?_erase_self
  have stays (left : Transaction) :
      ((engine.roster.put handle left).remove id).made[handle]? = some left :=
    Array.getElem?_setIfInBounds_self_of_lt inBounds
  split
  · rename_i ends
    obtain ⟨committed, outcome, counters, roster⟩ := finish_of_canEnd found ends
    rw [roster]
    exact ⟨gone _, committed, outcome, stays _, counters⟩
  · rename_i stuck
    obtain ⟨outcome, counters, roster⟩ := finish_of_stuck found (Bool.eq_false_iff.mpr stuck)
    rw [orderly.id_of_find? found] at outcome
    rw [roster]
    exact ⟨gone _, outcome, stays _, counters⟩

end Engine

namespace Running

variable {running : Running} {past : List Departure}

/-- The departures of a deed. Deeds other than calls have none. -/
def leaving (running : Running) : Deed → List Departure
  | .call call => running.ask fun engine => engine.leaving call
  | .moveTo _ _ | .forceAbort _ | .acquire _ _ _ => []

/-- The departures of a sequence of deeds, in order. -/
def departed (running : Running) : List Deed → List Departure
  | [] => []
  | deed :: rest => running.leaving deed ++ (running.after deed).departed rest

theorem departed_concat (running : Running) (deeds : List Deed) (last : Deed) :
    running.departed (deeds ++ [last]) =
      running.departed deeds ++ (deeds.foldl after running).leaving last := by
  induction deeds generalizing running with
  | nil => simp [departed]
  | cons deed rest ih =>
      rw [List.cons_append, departed, departed, ih, List.append_assoc, List.foldl_cons]

def ids (running : Running) : List TxnId :=
  running.ask fun engine => engine.roster.ids

def counters (running : Running) : Counters :=
  running.ask fun engine => engine.counters

def Balanced (running : Running) (past : List Departure) : Prop :=
  running.Holds fun engine => engine.Balanced past

theorem fresh_balanced (recovery : Option RecoveryLog) (algorithm : Algorithm) :
    (fresh recovery algorithm).Balanced [] := by
  cases algorithm <;> exact ⟨rfl, rfl, rfl, .nil⟩

theorem Balanced.after (balanced : running.Balanced past)
    (orderly : running.Holds fun engine => engine.Orderly) (deed : Deed) :
    (running.after deed).Balanced (past ++ running.leaving deed) := by
  cases deed with
  | call call => cases running <;> exact Engine.Balanced.step balanced orderly call
  | moveTo place target =>
      rw [leaving, List.append_nil]
      cases running <;> exact Engine.Balanced.touch balanced place (.moveTo target)
  | forceAbort place =>
      rw [leaving, List.append_nil]
      cases running <;> exact Engine.Balanced.touch balanced place .forceAbort
  | acquire place object mode =>
      rw [leaving, List.append_nil]
      cases running with
      | lock engine => exact Engine.Balanced.stay balanced rfl rfl rfl rfl rfl
      | timestamp engine | validation engine => exact balanced

theorem Balanced.deeds (balanced : running.Balanced past)
    (orderly : running.Holds fun engine => engine.Orderly) (deeds : List Deed) :
    (deeds.foldl Running.after running).Balanced (past ++ running.departed deeds) := by
  induction deeds generalizing running past with
  | nil => simpa [departed] using balanced
  | cons deed rest ih =>
      rw [departed, ← List.append_assoc]
      exact ih (balanced.after orderly deed) (orderly_after orderly deed)

theorem Balanced.account (balanced : running.Balanced past) :
    (past.map Prod.fst ++ running.ids).Nodup ∧
      running.counters.committed = past.countP (·.2 = some true) ∧
      running.counters.aborted = past.countP (·.2 = some false) ∧
      running.counters.begun = running.counters.committed + running.counters.aborted +
        running.ids.length + past.countP (·.2 = none) := by
  cases running <;>
    obtain ⟨distinct, begun⟩ := Engine.Balanced.account balanced <;>
    exact ⟨distinct, Engine.Balanced.committed balanced, Engine.Balanced.aborted balanced, begun⟩

theorem finish_ends (orderly : running.Holds fun engine => engine.Orderly) {id : TxnId}
    {handle : Handle} {txn : Transaction} (seat : running.handle? id = some handle)
    (present : running.made[handle]? = some txn) (commit : Bool) :
    let outcome := running.ask fun engine => (engine.finish id commit).1
    let next := running.after (.call (.finish id commit))
    next.handle? id = none ∧ running.leaving (.call (.finish id commit)) = [(id, outcome.toOption)] ∧
      if txn.canEnd commit then
        ∃ committed, outcome = .ok committed ∧
          next.made[handle]? = some { txn with status := .terminated } ∧
          next.counters = running.counters.countEnd committed
      else
        outcome = .error (.invalidTransition
            (.illegal id txn.status (Transaction.firstMove commit))) ∧
          next.made[handle]? = some txn ∧ next.counters = running.counters := by
  cases running <;>
  · rename_i engine
    have here : id ∈ engine.roster.ids := by
      rw [Roster.mem_ids, Std.ExtTreeMap.mem_iff_isSome_getElem?]
      exact Option.isSome_of_eq_some seat
    obtain ⟨gone, ends⟩ := Engine.Orderly.finish_ends orderly seat present commit
    exact ⟨gone, if_pos here, ends⟩

end Running

/-- The specification of ends and counters, for any engine and any sequence of deeds. The departed
and the live transactions are distinct, and the counters are the numbers of departures of each kind.
A transaction for which `canEnd` holds is terminated by `finish` and counted once, according to the
answer. Otherwise `finish` answers with an invalid transition, removes the transaction in its
current status and does not count it, so `inFlight` exceeds the number of live transactions by the
number of uncounted departures. -/
theorem ended_and_counted (algorithm : Algorithm) (recovery : Option RecoveryLog)
    (deeds : List Deed) :
    let start := Running.fresh recovery algorithm
    let running := deeds.foldl Running.after start
    let past := start.departed deeds
    let uncounted := past.countP (·.2 = none)
    (past.map Prod.fst ++ running.ids).Nodup ∧
    running.counters.committed = past.countP (·.2 = some true) ∧
    running.counters.aborted = past.countP (·.2 = some false) ∧
    running.counters.begun = running.counters.committed + running.counters.aborted +
      running.ids.length + uncounted ∧
    running.counters.inFlight = running.ids.length + uncounted ∧
    ∀ id handle txn, running.handle? id = some handle → running.made[handle]? = some txn →
      ∀ commit,
        let deed : Deed := .call (.finish id commit)
        let outcome := running.ask fun engine => (engine.finish id commit).1
        let next := running.after deed
        next.handle? id = none ∧
        start.departed (deeds ++ [deed]) = past ++ [(id, outcome.toOption)] ∧
        if txn.canEnd commit then
          ∃ committed, outcome = .ok committed ∧
            next.made[handle]? = some { txn with status := .terminated } ∧
            next.counters = running.counters.countEnd committed ∧
            next.counters.begun = next.counters.committed + next.counters.aborted +
              next.ids.length + uncounted
        else
          outcome = .error (.invalidTransition
              (.illegal id txn.status (Transaction.firstMove commit))) ∧
            next.made[handle]? = some txn ∧ next.counters = running.counters ∧
            next.counters.begun = next.counters.committed + next.counters.aborted +
              next.ids.length + (uncounted + 1) := by
  intro start running past uncounted
  have orderly : running.Holds fun engine => engine.Orderly :=
    Running.orderly_deeds (Running.fresh_orderly recovery algorithm) deeds
  have balanced : running.Balanced past :=
    (Running.fresh_balanced recovery algorithm).deeds (Running.fresh_orderly recovery algorithm) deeds
  obtain ⟨distinct, committed, aborted, begun⟩ := balanced.account
  refine ⟨distinct, committed, aborted, begun, ?_, fun id handle txn seat present commit => ?_⟩
  · rw [Counters.inFlight, begun]
    omega
  · intro deed outcome next
    obtain ⟨gone, leaving, ends⟩ := Running.finish_ends orderly seat present commit
    have departed : start.departed (deeds ++ [deed]) = past ++ [(id, outcome.toOption)] :=
      (start.departed_concat deeds deed).trans (congrArg (past ++ ·) leaving)
    have later := (balanced.after orderly deed).account.2.2.2
    rw [show running.leaving deed = [(id, outcome.toOption)] from leaving, List.countP_append] at later
    refine ⟨gone, departed, ?_⟩
    split
    · rename_i possible
      rw [if_pos possible] at ends
      obtain ⟨committed, answer, terminated, counted⟩ := ends
      rw [show outcome = .ok committed from answer] at later
      exact ⟨committed, answer, terminated, counted, later⟩
    · rename_i stuck
      rw [if_neg stuck] at ends
      obtain ⟨answer, stays, uncounted⟩ := ends
      rw [show outcome = .error _ from answer] at later
      exact ⟨answer, stays, uncounted, later⟩

/-- A commit request for a partially committed transaction removes it from a locking engine without
terminating or counting it, so that `inFlight` remains one with an empty roster. -/
theorem ended_uncounted :
    let running := ([.call .begin, .moveTo 0 .partiallyCommitted] : List Deed).foldl Running.after
      (Running.fresh none .lock)
    let next := running.after (.call (.finish 1 true))
    running.ids = [1] ∧ next.ids = [] ∧
    (running.ask fun engine => (engine.finish 1 true).1) =
      .error (.invalidTransition (.illegal 1 .partiallyCommitted .partiallyCommitted)) ∧
    next.made[0]?.map Transaction.status = some .partiallyCommitted ∧
    next.counters = { begun := 1 } ∧ next.counters.inFlight = 1 := by
  decide

end Isolation
