import Isolation.Proofs.Lock.Holdings

/-!
The wound-wait rule in runs of a locking engine. After a refusal every blocker is aborted or older
than the requester, so the waiting relation is acyclic, and transactions are wounded only by
requests of older ones. The request is granted once its blockers have ended.
-/

namespace Isolation

namespace Locking

open LockTable

variable {engine start : Engine Locking} {past : List Event} {id other : TxnId}
  {object : ObjectId} {action : Action}

structure Sound (engine : Engine Locking) (history : List Event) : Prop where
  chronicle : engine.Chronicle history
  undecided : engine.Undecided
  recorded : Recorded engine history

theorem Sound.move (sound : Sound engine past) (move : Move) :
    Sound (engine.after move) (past ++ engine.events move) where
  chronicle := sound.chronicle.move move
  undecided := sound.undecided.after sound.chronicle.orderly move
  recorded := sound.recorded.move sound.chronicle move

theorem Sound.moves (sound : Sound engine past) (moves : List Move) :
    Sound (moves.foldl Engine.after engine) (past ++ engine.eventsOf moves) :=
  Engine.kept_by_moves Sound.move sound moves

theorem Sound.run (sound : Sound engine past) (calls : List Call) :
    Sound (engine.run calls).2 (past ++ engine.history calls) := by
  rw [Engine.run_eq_trace, Engine.history_eq_trace]
  exact sound.moves _

theorem initial_sound (recovery : Option RecoveryLog) : Sound (initial recovery) [] where
  chronicle := .empty (initial_orderly recovery)
  undecided := Engine.undecided_of_nobody fun id live => by simp [initial] at live
  recorded := initial_recorded recovery

/-- The holders of the object, other than the requester, whose modes conflict with the request. -/
def blockers (engine : Engine Locking) (object : ObjectId) (id : TxnId) (action : Action) :
    List TxnId :=
  (conflicting (engine.books.table.holders object) id (modeFor action)).map Holder.id

theorem mem_blockers : other ∈ blockers engine object id action ↔
    ∃ holder ∈ engine.books.table.holders object,
      holder.id = other ∧ other ≠ id ∧ holder.mode.conflictsWith (modeFor action) = true := by
  simp only [blockers, List.mem_map, mem_conflicting]
  constructor
  · intro given
    obtain ⟨holder, ⟨member, different, conflict⟩, rfl⟩ := given
    exact ⟨holder, member, rfl, different, conflict⟩
  · intro given
    obtain ⟨holder, member, rfl, different, conflict⟩ := given
    exact ⟨holder, ⟨member, different, conflict⟩, rfl⟩

theorem age_of_find? (orderly : engine.Orderly) {handle : Handle} {txn : Transaction}
    (found : engine.roster.find? id = some (handle, txn)) : txn.age = id := by
  have stamped : txn.timestamp = some id := congrArg Prod.snd (orderly.identity_of_find? found)
  rw [Transaction.age, stamped]
  rfl

theorem blockers_eq {next : Engine Locking}
    (holders : next.books.table.holders object = engine.books.table.holders object) :
    blockers next object id action = blockers engine object id action := by
  rw [blockers, blockers, holders]

theorem holders_of_refused (active : engine.status? id = some .active)
    (refused : (engine.access object id action).1.isAllowed = false) (other : ObjectId) :
    (engine.access object id action).2.books.table.holders other =
      engine.books.table.holders other := by
  obtain ⟨handle, txn, found, running⟩ := Engine.find?_of_active active
  obtain ⟨allowed, table, _⟩ := access_active found running object action
  rw [table]
  rw [allowed] at refused
  exact acquire_refused (Roster.find?_eq_some.mp found).2 refused other

theorem status?_of_unrefused
    (unrefused : engine.status? id = some .active →
      (engine.access object id action).1.isAllowed = true) (other : TxnId) :
    (engine.access object id action).2.status? other = engine.status? other := by
  by_cases active : engine.status? id = some .active
  · obtain ⟨handle, txn, found, running⟩ := Engine.find?_of_active active
    obtain ⟨allowed, _, made⟩ := access_active found running object action
    have granted := unrefused active
    rw [allowed] at granted
    rw [acquire_made _ _ _ (Roster.find?_eq_some.mp found).2, granted, if_neg (by simp)] at made
    rw [Engine.status?, Engine.status?, Roster.get?_eq_bind, Roster.get?_eq_bind, made,
      (engine.access_live object id action).1]
  · obtain ⟨_, _, roster⟩ := access_inactive active object action
    rw [Engine.status?, roster, Engine.status?]

theorem isVictim_iff (orderly : engine.Orderly) {seat : Handle} {victim : Transaction}
    (standing : engine.roster.find? other = some (seat, victim)) {holder : Holder}
    (place : holder.handle = seat) :
    isVictim engine.roster.made id holder = true ↔ id < other ∧ victim.status.isRunning = true := by
  rw [isVictim, place, (Roster.find?_eq_some.mp standing).2, Option.any_some,
    age_of_find? orderly standing, Bool.and_eq_true, decide_eq_true_eq]

/-- The victims of a request are its younger blockers that are still running. -/
theorem mem_victims (sound : Sound engine past) {seat : Handle} {victim : Transaction}
    (standing : engine.roster.find? other = some (seat, victim)) :
    seat ∈ ((conflicting (engine.books.table.holders object) id (modeFor action)).filter
        (isVictim engine.roster.made id)).map Holder.handle ↔
      other ∈ blockers engine object id action ∧ id < other ∧ victim.status.isRunning = true := by
  have orderly := sound.chronicle.orderly
  have seated := (Roster.find?_eq_some.mp standing).1
  simp only [List.mem_map, List.mem_filter, mem_conflicting, mem_blockers]
  constructor
  · intro given
    obtain ⟨holder, ⟨⟨member, different, conflict⟩, wounded⟩, place⟩ := given
    have same : holder.id = other := by
      have first := (orderly.seated (sound.recorded.seated orderly member)).1
      have second := (orderly.seated seated).1
      lia
    exact ⟨⟨holder, member, same, same ▸ different, conflict⟩,
      (isVictim_iff orderly standing place).mp wounded⟩
  · intro given
    obtain ⟨⟨holder, member, same, different, conflict⟩, younger⟩ := given
    have place := sound.recorded.seated orderly member
    rw [same, seated, Option.some.injEq] at place
    exact ⟨holder, ⟨⟨member, same ▸ different, conflict⟩,
      (isVictim_iff orderly standing place.symm).mpr younger⟩, place.symm⟩

/-- A refusal aborts exactly the younger blockers. -/
theorem status?_of_refused (sound : Sound engine past) (active : engine.status? id = some .active)
    (refused : (engine.access object id action).1.isAllowed = false) (other : TxnId) :
    (engine.access object id action).2.status? other =
      if other ∈ blockers engine object id action ∧ id < other then some .aborted
      else engine.status? other := by
  have orderly := sound.chronicle.orderly
  obtain ⟨handle, txn, found, running⟩ := Engine.find?_of_active active
  have present := (Roster.find?_eq_some.mp found).2
  obtain ⟨allowed, _, made⟩ := access_active found running object action
  rw [allowed] at refused
  rw [acquire_made _ _ _ present, if_pos ⟨running, refused⟩, orderly.id_of_find? found,
    age_of_find? orderly found] at made
  by_cases live : other ∈ engine.roster.live
  · obtain ⟨seat, victim, standing⟩ := orderly.exists_find? live
    have status := Engine.status?_of_find? standing
    rw [Engine.status?, Roster.get?_eq_bind, (engine.access_live object id action).1,
      (Roster.find?_eq_some.mp standing).1, Option.bind_some, made, Transactions.getElem?_wound,
      (Roster.find?_eq_some.mp standing).2, status]
    simp only [mem_victims sound standing]
    rcases sound.undecided other victim.status status with running | aborted
    · simp only [running, Status.isRunning, and_true]
      split
      · rw [Option.map_some, Option.map_some, Transaction.forceAbort_eq, running]
        rfl
      · rw [Option.map_some, running]
    · simp [aborted, Status.isRunning]
  · have gone : other ∉ (engine.access object id action).2.roster.live := by
      rwa [(engine.access_live object id action).1]
    have unheld : ¬ (other ∈ blockers engine object id action ∧ id < other) := by
      intro younger
      obtain ⟨holder, member, same, _⟩ := mem_blockers.mp younger.1
      exact live (same ▸ (sound.recorded.mem_holders.mp member).1)
    rw [if_neg unheld, Engine.status?_eq_none gone, Engine.status?_eq_none live]

theorem active_of_refused (sound : Sound engine past) (active : engine.status? id = some .active)
    (refused : (engine.access object id action).1.isAllowed = false) :
    (engine.access object id action).2.status? id = some .active := by
  rw [status?_of_refused sound active refused, if_neg, active]
  exact fun younger => Nat.lt_irrefl _ younger.2

theorem aborted_or_older (sound : Sound engine past) (active : engine.status? id = some .active)
    (refused : (engine.access object id action).1.isAllowed = false)
    (blocks : other ∈ blockers (engine.access object id action).2 object id action) :
    (engine.access object id action).2.status? other = some .aborted ∨ other < id := by
  rw [blockers_eq (holders_of_refused active refused object)] at blocks
  rw [status?_of_refused sound active refused]
  obtain ⟨_, _, _, different, _⟩ := mem_blockers.mp blocks
  rcases Nat.lt_or_gt_of_ne different with older | younger
  · exact .inr older
  · exact .inl (if_pos ⟨blocks, younger⟩)

theorem aborted_of_oldest (sound : Sound engine past) (active : engine.status? id = some .active)
    (refused : (engine.access object id action).1.isAllowed = false)
    (oldest : ∀ other, engine.status? other = some .active → id ≤ other)
    (blocks : other ∈ blockers (engine.access object id action).2 object id action) :
    (engine.access object id action).2.status? other = some .aborted := by
  rcases aborted_or_older sound active refused blocks with aborted | older
  · exact aborted
  · have next := sound.move (.access object id action)
    obtain ⟨holder, member, rfl, _, _⟩ := mem_blockers.mp blocks
    obtain ⟨status, standing⟩ := next.chronicle.orderly.exists_status?
      (next.recorded.mem_holders.mp member).1
    rcases next.undecided holder.id status standing with rfl | rfl
    · exact absurd older (Nat.not_lt_of_le (oldest _ (Engine.active_of_access standing)))
    · exact standing

theorem older_of_wounded (sound : Sound engine past) (running : engine.status? other = some .active)
    (wounded : (engine.access object id action).2.status? other = some .aborted) :
    id < other ∧ engine.status? id = some .active := by
  by_cases unrefused : engine.status? id = some .active →
      (engine.access object id action).1.isAllowed = true
  · rw [status?_of_unrefused unrefused, running] at wounded
    contradiction
  · obtain ⟨active, refused⟩ := Classical.not_imp.mp unrefused
    rw [status?_of_refused sound active (Bool.eq_false_iff.mpr refused)] at wounded
    split at wounded
    · rename_i younger
      exact ⟨younger.2, active⟩
    · rw [running] at wounded
      contradiction

theorem older_of_wounded_batch (sound : Sound engine past) {objects : List ObjectId}
    (running : engine.status? other = some .active)
    (wounded : ((engine.asked id action objects).foldl Engine.after engine).status? other =
      some .aborted) : id < other ∧ engine.status? id = some .active := by
  induction objects generalizing engine past with
  | nil =>
      rw [Engine.asked, List.foldl_nil, running] at wounded
      contradiction
  | cons object rest ih =>
      rw [Engine.asked, List.foldl_cons] at wounded
      have live : other ∈ (engine.access object id action).2.roster.live := by
        rw [(engine.access_live object id action).1]
        exact Engine.mem_live_of_status? running
      have next := sound.move (.access object id action)
      obtain ⟨status, standing⟩ := next.chronicle.orderly.exists_status? live
      rcases next.undecided other status standing with rfl | rfl
      · split at wounded
        · obtain ⟨older, active⟩ := ih next standing wounded
          exact ⟨older, Engine.active_of_access active⟩
        · rw [List.foldl_nil, standing] at wounded
          contradiction
      · exact older_of_wounded sound running standing

theorem isAllowed_of_unblocked (orderly : engine.Orderly)
    (active : engine.status? id = some .active) (clear : blockers engine object id action = []) :
    (engine.access object id action).1.isAllowed = true := by
  obtain ⟨handle, txn, found, running⟩ := Engine.find?_of_active active
  obtain ⟨allowed, _⟩ := access_active found running object action
  rw [allowed, acquire_isGranted _ _ _ (Roster.find?_eq_some.mp found).2 running,
    orderly.id_of_find? found, List.map_eq_nil_iff.mp clear, List.isEmpty_nil, Bool.or_true]

theorem blockers_of_ended {next : Engine Locking} {events : List Event} (sound : Sound engine past)
    (later : Sound next (past ++ events)) (ungranted : accesses events = [])
    (left : ∀ other ∈ next.roster.live, other ∈ engine.roster.live)
    (ended : ∀ other ∈ blockers engine object id action, other ∉ next.roster.live) :
    blockers next object id action = [] := by
  apply List.eq_nil_iff_forall_not_mem.mpr
  intro other blocks
  obtain ⟨holder, member, rfl, different, conflict⟩ := mem_blockers.mp blocks
  obtain ⟨live, claimed, same⟩ := later.recorded.mem_holders.mp member
  have unwritten : .granted ⟨holder.id, object, .write⟩ ∉ events := fun granted => by
    have access := mem_accesses.mpr granted
    rw [ungranted] at access
    contradiction
  rw [claimants_keep ungranted] at claimed
  rw [lockOf_keep unwritten] at same
  have before : holder ∈ engine.books.table.holders object :=
    sound.recorded.mem_holders.mpr ⟨left _ live, claimed, same⟩
  exact ended _ (mem_blockers.mpr ⟨holder, before, rfl, different, conflict⟩) live

theorem isAllowed_of_ended (sound : Sound engine past) (active : engine.status? id = some .active)
    {endings : List (TxnId × Bool)}
    (ended : ∀ other, other ∈ endings.map Prod.fst ↔ other ∈ blockers engine object id action) :
    ((engine.run (endings.map fun ending => .finish ending.1 ending.2)).2.access
      object id action).1.isAllowed = true := by
  obtain ⟨live, status, ungranted⟩ := sound.chronicle.orderly.run_finishes endings
  have later := sound.run (endings.map fun ending => .finish ending.1 ending.2)
  apply isAllowed_of_unblocked later.chronicle.orderly
  · rw [status id, active]
    intro listed
    obtain ⟨_, _, _, different, _⟩ := mem_blockers.mp ((ended id).mp listed)
    exact different rfl
  · apply blockers_of_ended sound later ungranted
    · exact fun other present => ((live other).mp present).2
    · exact fun other blocks present => ((live other).mp present).1 ((ended other).mpr blocks)

/-- At some point of the moves the active transaction `id` was refused an access that `other`, not
aborted by the refusal, blocked. -/
def WaitsFor (start : Engine Locking) (moves : List Move) (id other : TxnId) : Prop :=
  ∃ before object action rest, moves = before ++ .access object id action :: rest ∧
    (before.foldl Engine.after start).status? id = some .active ∧
    ((before.foldl Engine.after start).access object id action).1.isAllowed = false ∧
    other ∈ blockers ((before.foldl Engine.after start).access object id action).2 object id action ∧
    ((before.foldl Engine.after start).access object id action).2.status? other ≠ some .aborted

theorem older_of_waitsFor (sound : Sound start []) {moves : List Move}
    (waits : WaitsFor start moves id other) : other < id := by
  obtain ⟨before, object, action, rest, _, active, refused, blocks, running⟩ := waits
  exact (aborted_or_older (sound.moves before) active refused blocks).resolve_left running

theorem wounded_by_call (sound : Sound engine past) {call : Call}
    (running : engine.status? other = some .active)
    (wounded : (engine.step call).2.status? other = some .aborted) :
    ∃ id, call.asker? = some id ∧ id < other ∧ engine.status? id = some .active := by
  rw [Engine.step_eq_moves] at wounded
  cases asks : call.asker? with
  | none =>
      have before := sound.chronicle.orderly.aborted_before (engine.moves_silent asks) wounded
      rw [running] at before
      contradiction
  | some id =>
      cases call with
      | access object target action =>
          cases asks
          exact ⟨id, rfl, older_of_wounded sound running wounded⟩
      | accessAll objects target action =>
          cases asks
          exact ⟨id, rfl, older_of_wounded_batch sound running wounded⟩
      | _ => contradiction

/-- Wound-wait, after every run. A refused request leaves only blockers that are aborted or older,
and is granted once they have ended. The waiting relation leads to older transactions, so it is
acyclic. A call wounds only transactions younger than its active requester; hence the oldest active
transaction is never wounded, and its blockers are aborted after a refusal. -/
theorem wound_wait (recovery : Option RecoveryLog) (calls : List Call) :
    let engine := ((initial recovery).run calls).2
    (∀ object id action, engine.status? id = some .active →
      (engine.access object id action).1.isAllowed = false →
        let next := (engine.access object id action).2
        (∀ other ∈ blockers next object id action,
          next.status? other = some .aborted ∨ other < id) ∧
        ((∀ other, engine.status? other = some .active → id ≤ other) →
          ∀ other ∈ blockers next object id action, next.status? other = some .aborted) ∧
        (∀ endings : List (TxnId × Bool), (∀ other, other ∈ endings.map Prod.fst ↔
          other ∈ blockers next object id action) →
            ((next.run (endings.map fun ending => .finish ending.1 ending.2)).2.access
              object id action).1.isAllowed = true)) ∧
    (∀ id, ¬ Relation.TransGen (WaitsFor (initial recovery) ((initial recovery).trace calls)) id id) ∧
    (∀ call id, engine.status? id = some .active → (engine.step call).2.status? id = some .aborted →
      ∃ other, call.asker? = some other ∧ other < id ∧ engine.status? other = some .active) ∧
    (∀ id, engine.status? id = some .active →
      (∀ other, engine.status? other = some .active → id ≤ other) →
        ∀ call, (engine.step call).2.status? id ≠ some .aborted) := by
  intro engine
  have sound := (initial_sound recovery).run calls
  have wounds {call : Call} {id : TxnId} (running : engine.status? id = some .active)
      (wounded : (engine.step call).2.status? id = some .aborted) :
      ∃ other, call.asker? = some other ∧ other < id ∧ engine.status? other = some .active :=
    wounded_by_call sound running wounded
  refine ⟨?_, ?_, fun call id => wounds, ?_⟩
  · intro object id action active refused next
    refine ⟨fun other => aborted_or_older sound active refused,
      fun oldest other => aborted_of_oldest sound active refused oldest, fun endings ended => ?_⟩
    exact isAllowed_of_ended (sound.move (.access object id action))
      (active_of_refused sound active refused) ended
  · intro id cycle
    have descends {first last : TxnId} (path : Relation.TransGen
        (WaitsFor (initial recovery) ((initial recovery).trace calls)) first last) :
        last < first := by
      induction path with
      | single waits => exact older_of_waitsFor (initial_sound recovery) waits
      | tail _ waits ih => exact Nat.lt_trans (older_of_waitsFor (initial_sound recovery) waits) ih
    exact Nat.lt_irrefl _ (descends cycle)
  · intro id running oldest call wounded
    obtain ⟨other, _, older, active⟩ := wounds running wounded
    exact Nat.not_lt_of_le (oldest other active) older

end Locking

end Isolation
