import Isolation.Proofs.Lifecycle
import Isolation.Proofs.Shift
import Isolation.Proofs.Victims

/-!
Exactness of the counters. Each call increases the counters by its tally, which is computed from the
answer and from the statuses before and after the call.
-/

namespace Isolation

theorem perm_extract {α : Type} [DecidableEq α] {values : List α} (distinct : values.Nodup)
    {left : Option α} (present : ∀ value, left = some value → value ∈ values) :
    values.Perm (left.toList ++ values.filter (left ≠ some ·)) := by
  cases left with
  | none => simp
  | some value =>
      have erased : values.erase value = values.filter (some value ≠ some ·) := by
        rw [distinct.erase_eq_filter]
        exact List.filter_congr fun other _ => by simp [bne, Bool.beq_eq_decide_eq, eq_comm]
      rw [← erased]
      exact List.perm_cons_erase (present value rfl)

namespace Counters

theorem countVerdict_eq (counters : Counters) (verdict : Verdict) :
    counters.countVerdict verdict = counters + {
      refusals := if verdict.isAllowed then 0 else 1
      wounds := verdict.victims.length } := by
  unfold countVerdict
  split
  · rename_i allowed
    rw [Verdict.victims_of_allowed allowed]
    rfl
  · rfl

theorem countEnd_eq (counters : Counters) (committed : Bool) :
    counters.countEnd committed = counters + {
      committed := if committed then 1 else 0
      aborted := if committed then 0 else 1 } := by
  cases committed <;> rfl

end Counters

/-- The transaction that a call ends without a commit, read off its answer. -/
def Call.aborted? : Call × Answer → Option TxnId
  | (.finish id _, .ended (.ok false)) => some id
  | _ => none

def Answer.refuses : Answer → Bool
  | .judged verdict => !verdict.isAllowed
  | _ => false

namespace Engine

variable {β : Type} [Discipline β] {engine : Engine β} {past : List Event} {id : TxnId}

/-- The transactions that a call ends without a commit. A shutdown does so for every live
transaction. -/
def aborted (engine : Engine β) : Call → List TxnId
  | .shutdown => engine.roster.ids
  | call => (Call.aborted? (call, (engine.step call).1)).toList

/-- The active transactions that are aborted by a call of an older transaction. -/
def wounded (engine : Engine β) (call : Call) : List TxnId :=
  engine.roster.ids.filter fun id => call.asker?.any (· < id) &&
    engine.status? id = some .active && (engine.step call).2.status? id = some .aborted

/-- The increments of the counters that correspond to a call. -/
def tally (engine : Engine β) (call : Call) : Counters where
  begun := (engine.step call).1.begun?.toList.length
  committed := (Call.committed? (call, (engine.step call).1)).toList.length
  aborted := (engine.aborted call).length
  refusals := if (engine.step call).1.refuses then 1 else 0
  wounds := (engine.wounded call).length

theorem wounded_silent (engine : Engine β) {call : Call} (silent : call.asker? = none) :
    engine.wounded call = [] := by
  simp [wounded, silent]

theorem Names.wounded_perm {verdict : Verdict} {call : Call}
    (names : engine.Names (engine.step call).2 id verdict) (asks : call.asker? = some id) :
    verdict.victims.Perm (engine.wounded call) := by
  have distinct : (engine.wounded call).Nodup := by
    refine List.Nodup.filter _ ?_
    exact engine.roster.ids_pairwise.imp Nat.ne_of_lt
  refine (List.perm_ext_iff_of_nodup names.distinct distinct).mpr fun other => ?_
  rw [names.exact, Wounds, wounded, List.mem_filter, asks, Roster.mem_ids]
  simp only [Option.any_some, Bool.and_eq_true, decide_eq_true_eq]
  constructor
  · intro wounds
    obtain ⟨younger, active, aborted⟩ := wounds
    exact ⟨mem_live_of_status? active, ⟨younger, active⟩, aborted⟩
  · intro given
    obtain ⟨_, ⟨younger, active⟩, aborted⟩ := given
    exact ⟨younger, active, aborted⟩

theorem accessFrom_counters {verdict : Verdict} (allowed : verdict.isAllowed = true) (engine : Engine β)
    (id : TxnId) (action : Action) (objects : List ObjectId) :
    (accessFrom verdict engine id action objects).2.counters =
      engine.counters.countVerdict (accessFrom verdict engine id action objects).1 := by
  induction objects generalizing engine verdict with
  | nil => simp [accessFrom, Counters.countVerdict, allowed]
  | cons object rest ih =>
      simp only [accessFrom]
      split
      · rename_i granted
        rw [ih granted, access_counters]
        simp [Counters.countVerdict, granted]
      · exact engine.access_counters object id action

/-- The tally of a call that is answered with a verdict. -/
theorem tally_of_judged {verdict : Verdict} {call : Call}
    (names : engine.Names (engine.step call).2 id verdict) (asks : call.asker? = some id)
    (answer : (engine.step call).1 = .judged verdict) :
    engine.tally call = {
      refusals := if verdict.isAllowed then 0 else 1
      wounds := verdict.victims.length } := by
  rw [(names.wounded_perm asks).length_eq]
  cases call with
  | access _ _ _ | accessAll _ _ _ =>
      cases allowed : verdict.isAllowed <;>
        simp [tally, answer, Engine.aborted, Call.committed?, Call.aborted?, Answer.begun?,
          Answer.refuses, allowed]
  | _ => contradiction

/-- Evicting a list of distinct live transactions counts each of them once, as committed if its
status is `committed` and as aborted otherwise. -/
theorem Orderly.counters_evicts [Discipline.PreservesIdentities β] (orderly : engine.Orderly)
    {ids : List TxnId} (distinct : ids.Nodup) (live : ∀ id ∈ ids, id ∈ engine.roster.live) :
    (ids.foldl Engine.evict engine).counters = engine.counters + {
      committed := ids.countP (engine.status? · = some .committed)
      aborted := ids.countP (engine.status? · ≠ some .committed) } := by
  refine orderly.evicts_induction (P := fun engine ids => (ids.foldl Engine.evict engine).counters =
    engine.counters + {
      committed := ids.countP (engine.status? · = some .committed)
      aborted := ids.countP (engine.status? · ≠ some .committed) })
    distinct live (fun engine => rfl) ?_
  intro engine id rest orderly here first ih
  obtain ⟨handle, txn, found⟩ := orderly.exists_find? here
  have standing : ∀ other ∈ rest, (engine.evict id).status? other = engine.status? other :=
    fun other member => orderly.status?_evict fun same => first (same ▸ member)
  have committed : rest.countP ((engine.evict id).status? · = some .committed) =
      rest.countP (engine.status? · = some .committed) :=
    List.countP_congr fun other member => by rw [standing other member]
  have aborted : rest.countP ((engine.evict id).status? · ≠ some .committed) =
      rest.countP (engine.status? · ≠ some .committed) :=
    List.countP_congr fun other member => by rw [standing other member]
  rw [List.foldl_cons, ih, committed, aborted, evict_found found, List.countP_cons, List.countP_cons,
    status?_of_find? found, Counters.countEnd, Transaction.isCommitted]
  by_cases done : txn.status = .committed
  · simp [done, Counters.add_eq, Nat.add_assoc, Nat.add_comm 1]
  · simp [done, Counters.add_eq, Nat.add_assoc, Nat.add_comm 1]

theorem counters_evicts [Discipline.OnlyForcesAborts β] (orderly : engine.Orderly)
    (undecided : engine.Undecided)
    {ids : List TxnId} (distinct : ids.Nodup) (live : ∀ id ∈ ids, id ∈ engine.roster.live) :
    (ids.foldl evict engine).counters = engine.counters + { aborted := ids.length } := by
  have uncommitted : ∀ id ∈ ids, engine.status? id ≠ some .committed := by
    intro id _ committed
    rcases undecided id .committed committed with active | aborted <;> contradiction
  have nobody : ids.countP (engine.status? · = some .committed) = 0 :=
    List.countP_eq_zero.mpr fun id member => by simpa using uncommitted id member
  have everybody : ids.countP (engine.status? · ≠ some .committed) = ids.length :=
    List.countP_eq_length.mpr fun id member => by simpa using uncommitted id member
  rw [orderly.counters_evicts distinct live, nobody, everybody]

theorem tally_finish (engine : Engine β) (id : TxnId) (commit : Bool) :
    engine.tally (.finish id commit) =
      match (engine.finish id commit).1 with
      | .ok committed => {
          committed := if committed then 1 else 0
          aborted := if committed then 0 else 1 }
      | .error _ => {} := by
  rw [tally, wounded_silent engine rfl]
  simp only [Engine.aborted, step, answered]
  cases (engine.finish id commit).1 with
  | error reason => rfl
  | ok committed => cases committed <;> rfl

theorem step_counters [Discipline.NamesVictims β]
    (sound : Discipline.RefusesOnlyConflicts.Sound engine past)
    (undecided : engine.Undecided) (call : Call) :
    (engine.step call).2.counters = engine.counters + engine.tally call := by
  have orderly := (Discipline.RefusesOnlyConflicts.chronicle sound).orderly
  cases call with
  | begin =>
      rw [tally, wounded_silent engine rfl]
      rfl
  | access object id action =>
      have names := Discipline.NamesVictims.names sound undecided object id action
      have counts : engine.tally (.access object id action) = _ := tally_of_judged names rfl rfl
      rw [counts, ← Counters.countVerdict_eq]
      exact engine.access_counters object id action
  | accessAll objects id action =>
      have nobody : (Verdict.allowed .nothingAsked).victims = [] := rfl
      have names := accessFrom_names sound undecided nobody id action objects
      have counts : engine.tally (.accessAll objects id action) = _ := tally_of_judged names rfl rfl
      rw [counts, ← Counters.countVerdict_eq]
      exact accessFrom_counters rfl engine id action objects
  | finish id commit =>
      rw [tally_finish]
      cases found : engine.roster.find? id with
      | none =>
          rw [step, answered, finish_absent found]
          rfl
      | some entry =>
          rw [step, answered, undecided.finish_eq found commit]
          exact Counters.countEnd_eq _ _
  | shutdown =>
      rw [tally, wounded_silent engine rfl]
      exact counters_evicts orderly undecided (engine.roster.ids_pairwise.imp Nat.ne_of_lt)
        fun id => Roster.mem_ids.mp
  | log id row =>
      rw [tally, wounded_silent engine rfl]
      exact engine.log_counters id row
  | _ =>
      rw [tally, wounded_silent engine rfl]
      rfl

theorem Orderly.active_before [Discipline.OnlyForcesAborts β] (orderly : engine.Orderly)
    (given : id ≤ engine.last) {moves : List Move}
    (active : (moves.foldl Engine.after engine).status? id = some .active) :
    engine.status? id = some .active := by
  induction moves generalizing engine with
  | nil => exact active
  | cons move rest ih =>
      have next := ih (orderly.after move) (Nat.le_trans given (engine.last_le_after move)) active
      rcases orderly.status?_after move (mem_live_of_status? next) with
        same | ⟨_, new, _⟩ | ⟨_, _, _, _, aborted⟩
      · exact same ▸ next
      · lia
      · rw [aborted] at next
        obtain ⟨status, _, rolledBack⟩ := Option.map_eq_some_iff.mp next
        cases status <;> contradiction

end Engine

namespace Running

variable {running : Running} {asked : List Access} {id : TxnId}

def tally (running : Running) (call : Call) : Counters :=
  running.ask fun engine => engine.tally call

theorem step_counters (accounted : running.Holds (Engine.Accounted asked))
    (undecided : running.Holds fun engine => engine.Undecided) (call : Call) :
    ((running.change fun engine => (engine.step call).2).ask fun engine => engine.counters) =
      (running.ask fun engine => engine.counters) + running.tally call := by
  cases running <;>
    obtain ⟨past, sound, _⟩ := accounted <;>
    exact Engine.step_counters sound undecided call

theorem active_before (accounted : running.Holds (Engine.Accounted asked))
    (given : id ≤ running.last) (call : Call)
    (active : ((running.change fun engine => (engine.step call).2).ask fun engine =>
      engine.status? id) = some .active) :
    (running.ask fun engine => engine.status? id) = some .active := by
  cases running <;>
    obtain ⟨past, sound, _⟩ := accounted <;>
    simp only [change, ask, Engine.step_eq_moves] at active <;>
    exact (Discipline.RefusesOnlyConflicts.chronicle sound).orderly.active_before given active

end Running

namespace Controller.Sound

variable {controller : Controller} {id : TxnId}

/-- A call does not make an existing transaction active that was not active before. -/
theorem active_before (sound : controller.Sound) {call : Controller.Call}
    (kept : call.keeps controller.algorithm = true) (given : id ≤ controller.running.last)
    (active : (controller.step call).2.status? id = some .active) :
    controller.status? id = some .active := by
  obtain ⟨asked, accounted⟩ := sound.accounted
  rcases controller.running_step call with same | ⟨target, rfl, _⟩ | ⟨request, rfl, stepped⟩
  · rwa [status?, same] at active
  · rw [← show controller.algorithm = target from of_decide_eq_true kept, step_switchTo_self] at active
    exact active
  · rw [status?, stepped] at active
    exact Running.active_before accounted.engine given request active

end Controller.Sound

namespace Moment

variable {moment : Moment} {id : TxnId}

def committed? (moment : Moment) : Option TxnId :=
  match moment.call with
  | .call request => Call.committed? (request, moment.answer)
  | .start | .switchTo _ => none

/-- The transactions that a moment ends without a commit: those answered so, and every live
transaction at a shutdown. -/
def aborted (moment : Moment) : List TxnId :=
  match moment.call with
  | .call .shutdown => moment.controller.active
  | .call request => (Call.aborted? (request, moment.answer)).toList
  | .start | .switchTo _ => []

/-- The moment refuses an access and its controller is started. -/
def refused (moment : Moment) : Bool :=
  moment.controller.started && moment.answer.refuses

/-- The active transactions that are aborted by a call of an older transaction. -/
def wounded (moment : Moment) : List TxnId :=
  match moment.call with
  | .call request => moment.controller.active.filter fun id => request.asker?.any (· < id) &&
      moment.controller.status? id = some .active && moment.next.status? id = some .aborted
  | .start | .switchTo _ => []

def tally (moment : Moment) : Counters where
  begun := moment.begun?.toList.length
  committed := moment.committed?.toList.length
  aborted := moment.aborted.length
  refusals := if moment.refused then 1 else 0
  wounds := moment.wounded.length

theorem tally_of_reached {controller : Controller} {request : Isolation.Call}
    (reached : controller.started = true ∨ request = .shutdown) :
    (⟨controller, .call request⟩ : Moment).tally = controller.running.tally request := by
  obtain ⟨running, started, recovery⟩ := controller
  rcases reached with same | rfl
  · cases same
    cases request <;> cases running <;> rfl
  · cases running <;> cases started <;> rfl

theorem tally_of_idle {controller : Controller} {request : Isolation.Call}
    (idle : controller.started = false) (nobody : controller.active = []) :
    (⟨controller, .call request⟩ : Moment).tally = {} := by
  obtain ⟨running, started, recovery⟩ := controller
  cases idle
  cases request <;>
    simp only [tally, begun?, committed?, aborted, refused, wounded, answer, nobody] <;>
    rfl

theorem tally_of_unasked {controller : Controller} {call : Controller.Call}
    (unasked : ∀ request, call ≠ .call request) : (⟨controller, call⟩ : Moment).tally = {} := by
  cases call with
  | start | switchTo target =>
      simp [tally, begun?, committed?, aborted, refused, wounded, answer, Controller.step,
        Answer.begun?, Answer.refuses]
  | call request => exact absurd rfl (unasked request)

/-- Without a switch, a call increases the counters by its tally. -/
theorem counters_next (sound : moment.controller.Sound) (kept : moment.switches = false) :
    moment.next.counters = moment.controller.counters + moment.tally := by
  obtain ⟨asked, accounted⟩ := sound.accounted
  obtain ⟨controller, call⟩ := moment
  cases call with
  | start =>
      rw [tally_of_unasked (by simp)]
      rfl
  | switchTo target =>
      have same : controller.algorithm = target := by
        simpa [switches, Controller.Call.keeps] using kept
      rw [tally_of_unasked (by simp), next, ← same, Controller.step_switchTo_self]
      rfl
  | call request =>
      have reaches (stepped : (controller.step (.call request)).2.running =
          controller.running.change fun engine => (engine.step request).2)
          (reached : controller.started = true ∨ request = .shutdown) :
          (controller.step (.call request)).2.counters = controller.counters +
            (⟨controller, .call request⟩ : Moment).tally := by
        rw [tally_of_reached reached, Controller.counters, stepped,
          Running.step_counters accounted.engine sound.undecided]
        rfl
      cases started : controller.started with
      | true => exact reaches (Controller.step_running started request) (.inl started)
      | false =>
          rcases Controller.step_idle started request with same | rfl
          · rw [tally_of_idle started (accounted.idle started), next, same]
            rfl
          · exact reaches rfl (.inr rfl)

theorem ended?_toList (up : moment.call ≠ .call .shutdown) :
    moment.ended?.toList = moment.committed?.toList ++ moment.aborted := by
  obtain ⟨controller, call⟩ := moment
  cases call with
  | start | switchTo target => rfl
  | call request =>
      cases request with
      | shutdown => exact absurd rfl up
      | finish id commit =>
          simp only [ended?, committed?, aborted, answer, Controller.step, answered]
          cases (controller.finish id commit).1 with
          | error reason => rfl
          | ok committed => cases committed <;> rfl
      | _ => rfl

theorem clears_of_up (kept : moment.switches = false) (up : moment.call ≠ .call .shutdown) :
    moment.clears = false := by
  unfold clears
  split
  · rename_i down
    exact absurd down up
  · exact kept

/-- Conservation of transactions: those live before a call or begun by it are, up to order, those it
commits, those it aborts and those live afterwards. -/
theorem departs (sound : moment.controller.Sound) (kept : moment.switches = false) :
    (moment.controller.active ++ moment.begun?.toList).Perm
      (moment.committed?.toList ++ moment.aborted ++ moment.next.active) := by
  by_cases up : moment.call = .call .shutdown
  · obtain ⟨controller, call⟩ := moment
    cases up
    rw [active_cleared sound rfl]
    simp [begun?, answer, Controller.step, Answer.begun?, committed?, Call.committed?, aborted]
  · rw [← ended?_toList up, active_next sound (clears_of_up kept up)]
    exact perm_extract ((ascending sound).imp Nat.ne_of_lt)
      fun id ended => List.mem_append_left _ (live_of_ended? ended)

theorem finish_of_committed? (committed : moment.committed? = some id) : ∃ commit,
    moment.call = .call (.finish id commit) ∧ (moment.controller.finish id commit).1 = .ok true := by
  obtain ⟨controller, call⟩ := moment
  cases call with
  | start | switchTo target => contradiction
  | call request =>
      cases request with
      | finish target commit =>
          simp only [committed?, answer, Controller.step, answered] at committed
          cases outcome : (controller.finish target commit).1 with
          | error reason =>
              rw [outcome] at committed
              contradiction
          | ok answer =>
              rw [outcome] at committed
              cases answer with
              | false => contradiction
              | true =>
                  cases committed
                  exact ⟨commit, rfl, outcome⟩
      | _ => contradiction

theorem mem_wounded (member : id ∈ moment.wounded) :
    id ∈ moment.controller.active ∧ moment.controller.status? id = some .active ∧
      moment.next.status? id = some .aborted := by
  unfold wounded at member
  split at member
  · simp only [List.mem_filter, Bool.and_eq_true, decide_eq_true_eq] at member
    exact ⟨member.1, member.2.1.2, member.2.2⟩
  · contradiction
  · contradiction

theorem wounded_nodup (moment : Moment) : moment.wounded.Nodup := by
  unfold wounded
  split
  · exact ((Running.ids_pairwise _).imp Nat.ne_of_lt).filter _
  · exact .nil
  · exact .nil

/-- An aborted transaction remains aborted until a call ends it without a commit. -/
theorem aborted_or_still (sound : moment.controller.Sound) (kept : moment.switches = false)
    (aborted : moment.controller.status? id = some .aborted) :
    id ∈ moment.aborted ∨ moment.next.status? id = some .aborted := by
  have live : id ∈ moment.controller.active := Controller.live_of_status? aborted
  have left := (departs sound kept).mem_iff.mp (List.mem_append_left _ live)
  rw [List.mem_append, List.mem_append, Option.mem_toList] at left
  rcases left with (committed | ended) | stays
  · obtain ⟨commit, _, committed⟩ := finish_of_committed? committed
    rw [(sound.active_of_committed committed).2] at aborted
    contradiction
  · exact .inl ended
  · rcases (sound.step moment.call).status?_of_live stays with active | still
    · rw [sound.active_before (keeps_of_unswitched kept) (sound.le_last live) active] at aborted
      contradiction
    · exact .inr still

end Moment

namespace Controller

variable {controller : Controller} {id : TxnId}

/-- The sum of the tallies of a list of moments. -/
def tallied (past : List Moment) : Counters where
  begun := (past.filterMap Moment.begun?).length
  committed := (past.filterMap Moment.committed?).length
  aborted := (past.flatMap Moment.aborted).length
  refusals := past.countP Moment.refused
  wounds := (past.flatMap Moment.wounded).length

theorem tallied_concat (past : List Moment) (moment : Moment) :
    tallied (past ++ [moment]) = tallied past + moment.tally := by
  simp only [tallied, filterMap_concat, List.flatMap_append, List.countP_append, List.length_append,
    List.flatMap_singleton, List.countP_singleton]
  rfl

/-- The invariant relating a controller to the moments since its engine was created. -/
structure Counted (controller : Controller) (past : List Moment) : Prop where
  counters : controller.counters = tallied past
  begun : (past.filterMap Moment.begun?).Perm
    (past.filterMap Moment.committed? ++ past.flatMap Moment.aborted ++ controller.active)
  distinct : (past.filterMap Moment.begun?).Nodup
  given : ∀ id ∈ past.filterMap Moment.begun?, id ≤ controller.running.last
  wounded : (past.flatMap Moment.wounded).Nodup
  aborted : ∀ id ∈ past.flatMap Moment.wounded,
    id ∈ past.flatMap Moment.aborted ∨ controller.status? id = some .aborted

namespace Counted

variable {moment : Moment} {past : List Moment}

theorem fresh {recovery : Option RecoveryLog} {target : Algorithm}
    (exchanged : controller.running = Running.fresh recovery target) : controller.Counted [] := by
  have nobody : controller.active = [] := by rw [Controller.active, exchanged, Running.fresh_ids]
  constructor
  case counters =>
      rw [Controller.counters, exchanged]
      cases target <;> rfl
  case begun =>
      rw [nobody]
      exact .nil
  all_goals simp

theorem gone (counted : controller.Counted past) (ended : id ∈ past.flatMap Moment.aborted) :
    id ∉ controller.active := by
  have distinct := counted.begun.nodup_iff.mp counted.distinct
  exact (List.disjoint_of_nodup_append distinct) (List.mem_append_right _ ended)

theorem next (counted : moment.controller.Counted past) (sound : moment.controller.Sound)
    (kept : moment.switches = false) : moment.next.Counted (past ++ [moment]) := by
  constructor
  case counters => rw [Moment.counters_next sound kept, counted.counters, tallied_concat]
  case begun =>
      rw [filterMap_concat, filterMap_concat, List.flatMap_append, List.flatMap_singleton]
      -- The live transactions of the old permutation are replaced by those of `departs`.
      have before := counted.begun.append_right moment.begun?.toList
      have now := (Moment.departs sound kept).append_left
        (past.filterMap Moment.committed? ++ past.flatMap Moment.aborted)
      rw [List.append_assoc] at before
      refine (before.trans now).trans ?_
      simp only [List.append_assoc]
      refine .append_left _ ?_
      exact List.perm_append_comm_assoc _ _ _
  case distinct =>
      rw [filterMap_concat]
      refine List.nodup_append'.mpr ⟨counted.distinct, ?_, fun id before begun => ?_⟩
      · cases moment.begun? <;> simp
      · rw [Option.mem_toList, Moment.begun?_eq_some] at begun
        have last := eq_of_begin begun.2
        have bound := counted.given id before
        lia
  case given =>
      intro id begun
      rw [filterMap_concat, List.mem_append, Option.mem_toList] at begun
      rcases begun with before | now
      · exact Nat.le_trans (counted.given id before) (last_le_of_keeps (Moment.keeps_of_unswitched kept))
      · obtain ⟨begins, begun⟩ := Moment.begun?_eq_some.mp now
        rw [Moment.next, begins]
        exact Nat.le_of_eq (last_begin begun).symm
  case wounded =>
      rw [List.flatMap_append, List.flatMap_singleton]
      refine List.nodup_append'.mpr ⟨counted.wounded, moment.wounded_nodup, fun id before now => ?_⟩
      obtain ⟨live, active, _⟩ := Moment.mem_wounded now
      rcases counted.aborted id before with ended | aborted
      · exact counted.gone ended live
      · rw [active] at aborted
        contradiction
  case aborted =>
      intro id wounded
      rw [List.flatMap_append, List.flatMap_singleton, List.mem_append] at wounded ⊢
      rcases wounded with before | now
      · rcases counted.aborted id before with ended | aborted
        · exact .inl (.inl ended)
        · exact (Moment.aborted_or_still sound kept aborted).imp_left .inr
      · exact .inr (Moment.mem_wounded now).2.2

end Counted

end Controller

theorem Moment.next_of_switches {moment : Moment} (switches : moment.switches = true) :
    ∃ target, moment.next.running = Running.fresh moment.controller.recovery target := by
  obtain ⟨controller, call⟩ := moment
  cases call with
  | start | call request => contradiction
  | switchTo target =>
      have other : controller.algorithm ≠ target := by
        simpa [Moment.switches, Controller.Call.keeps] using switches
      exact ⟨target, Controller.switched_running other⟩

/-- The counters of a controller after any run are exact for the moments since the last effective
switch: each field is the number of the corresponding events. The begun transactions are distinct
and are a permutation of the committed, the aborted and the live ones, so that `inFlight` is the
number of live transactions. No transaction is wounded twice, and there are at most as many wounds
as aborted transactions and live ones with status `aborted`. -/
theorem counters_exact (algorithm : Algorithm) (recovery : Option RecoveryLog)
    (calls : List Controller.Call) :
    let start := Controller.ofAlgorithm algorithm recovery
    let controller := (start.run calls).2
    let past := start.since Moment.switches calls
    let begun := past.filterMap Moment.begun?
    let committed := past.filterMap Moment.committed?
    let aborted := past.flatMap Moment.aborted
    let wounded := past.flatMap Moment.wounded
    let counters := controller.counters
    counters = {
      begun := begun.length
      committed := committed.length
      aborted := aborted.length
      refusals := past.countP Moment.refused
      wounds := wounded.length } ∧
    begun.Nodup ∧ begun.Perm (committed ++ aborted ++ controller.active) ∧ wounded.Nodup ∧
    counters.begun = counters.committed + counters.aborted + controller.active.length ∧
    counters.inFlight = controller.active.length ∧
    counters.wounds ≤ counters.aborted +
      controller.active.countP (controller.status? · = some .aborted) := by
  intro start controller past begun committed aborted wounded counters
  have counted : controller.Counted past := by
    refine Controller.since_induction (P := Controller.Counted) (.ofAlgorithm algorithm recovery)
      (.fresh rfl) (fun moment _ switches => ?_)
      (fun moment past sound kept counted => counted.next sound kept) calls
    obtain ⟨target, exchanged⟩ := Moment.next_of_switches switches
    exact .fresh exchanged
  have exact : counters = _ := counted.counters
  have balance : begun.length = committed.length + aborted.length + controller.active.length := by
    rw [counted.begun.length_eq, List.length_append, List.length_append]
  have fewer : wounded.length ≤ aborted.length +
      controller.active.countP (controller.status? · = some .aborted) := by
    rw [List.countP_eq_length_filter, ← List.length_append]
    refine (List.subperm_of_subset counted.wounded fun id member => ?_).length_le
    rw [List.mem_append, List.mem_filter, decide_eq_true_iff]
    exact (counted.aborted id member).imp_right fun standing =>
      ⟨Controller.live_of_status? standing, standing⟩
  refine ⟨exact, counted.distinct, counted.begun, counted.wounded, ?_, ?_, ?_⟩
  · rw [exact]
    exact balance
  · rw [exact, Counters.inFlight]
    exact Nat.sub_eq_of_eq_add' balance
  · rw [exact]
    exact fewer

/-- A wound counts as a refusal of the older writer and as one wound; the younger writer counts as
aborted when it ends. -/
example :
    let start := Controller.ofAlgorithm .lock none
    let calls : List Controller.Call := [.start, .call .begin, .call .begin,
      .call (.access "x" 2 .write), .call (.access "x" 1 .write), .call (.finish 2 true)]
    let past := start.since Moment.switches calls
    past.flatMap Moment.wounded = [2] ∧ past.flatMap Moment.aborted = [2] ∧
      (start.run calls).2.counters = { begun := 2, aborted := 1, refusals := 1, wounds := 1 } := by
  decide

end Isolation
