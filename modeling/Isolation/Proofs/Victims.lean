import Isolation.Proofs.Refusals
import Isolation.Proofs.Traceless

/-!
Correctness of the victims named in a verdict. They are exactly the younger transactions that were
active before the access and are aborted after it. A batch ends with its first refusal, so the same
holds for the verdict of a batch.
-/

namespace Isolation

theorem Verdict.victims_of_allowed {verdict : Verdict} (allowed : verdict.isAllowed = true) :
    verdict.victims = [] := by
  cases verdict with
  | allowed grant => rfl
  | refused refusal => contradiction

namespace Engine

variable {β : Type} {engine next : Engine β} {id other : TxnId}

/-- Between the two states the transaction was aborted, and it is younger than the other. -/
def Wounds (engine next : Engine β) (id other : TxnId) : Prop :=
  id < other ∧ engine.status? other = some .active ∧ next.status? other = some .aborted

theorem Undecided.isRunning_iff (undecided : engine.Undecided) {handle : Handle}
    {txn : Transaction} (found : engine.roster.find? id = some (handle, txn)) :
    txn.status.isRunning = true ↔ engine.status? id = some .active := by
  rw [status?_of_find? found, Option.some.injEq]
  rcases undecided.status_of_find? found with active | aborted
  · simp [active, Status.isRunning]
  · simp [aborted, Status.isRunning]

theorem not_wounds_of_same (same : id < other → next.status? other = engine.status? other) :
    ¬ engine.Wounds next id other := by
  intro wounds
  obtain ⟨younger, active, aborted⟩ := wounds
  rw [same younger, active] at aborted
  contradiction

/-- The verdict names exactly the wounded transactions, each of them once. -/
structure Names (engine next : Engine β) (id : TxnId) (verdict : Verdict) : Prop where
  distinct : verdict.victims.Nodup
  exact : ∀ other, other ∈ verdict.victims ↔ engine.Wounds next id other

theorem Names.nobody {verdict : Verdict} (none : verdict.victims = [])
    (same : ∀ other, id < other → next.status? other = engine.status? other) :
    engine.Names next id verdict where
  distinct := by
    rw [none]
    exact .nil
  exact other := by simp [none, not_wounds_of_same (same other)]

end Engine

/-- The verdict of every access names exactly the transactions wounded by it. -/
class Discipline.NamesVictims (β : Type) [Discipline β] extends Discipline.RefusesOnlyConflicts β where
  names {engine : Engine β} {past : List Event} : Sound engine past → engine.Undecided →
    ∀ object id action, engine.Names (engine.access object id action).2 id
      (engine.access object id action).1

namespace Locking

open LockTable

variable {engine : Engine Locking} {past : List Event} {id other : TxnId} {object : ObjectId}
  {action : Action}

theorem acquire_victims {table : LockTable} {made : Transactions} {requester : Handle}
    {txn : Transaction} (mode : LockMode) (present : made[requester]? = some txn)
    (active : txn.isActive = true)
    (refused : (table.acquire made object requester mode).outcome.isGranted = false) :
    (verdict txn object mode (table.acquire made object requester mode).outcome).victims =
      ((conflicting (table.holders object) txn.id mode).filter (isVictim made txn.age)).map
        Holder.id := by
  rw [acquire_isGranted table object mode present active, Bool.or_eq_false_iff] at refused
  simp only [acquire, present, active, refused, Bool.not_true, Bool.false_eq_true, if_false]
  split
  · rename_i none
    rw [List.isEmpty_iff.mp none]
    rfl
  · rfl

theorem victims_of_refused (orderly : engine.Orderly) (active : engine.status? id = some .active)
    (refused : (engine.access object id action).1.isAllowed = false) :
    (engine.access object id action).1.victims =
      ((conflicting (engine.books.table.holders object) id (modeFor action)).filter
        (isVictim engine.roster.made id)).map Holder.id := by
  obtain ⟨handle, txn, found, running⟩ := Engine.find?_of_active active
  rw [(access_active found running object action).1] at refused
  have victims := acquire_victims (modeFor action) (Roster.find?_eq_some.mp found).2 running refused
  rw [orderly.id_of_find? found, age_of_find? orderly found] at victims
  rw [← victims, (Engine.access_found found object action).1, judge_eq, judge, running, if_pos rfl]

theorem victims_of_inactive (idle : engine.status? id ≠ some .active) :
    (engine.access object id action).1.victims = [] := by
  cases found : engine.roster.find? id with
  | none =>
      rw [(Engine.access_absent found object action).1]
      rfl
  | some entry =>
      have inactive : entry.2.isActive = false := by
        rw [Engine.status?_of_find? found] at idle
        exact decide_eq_false fun active => idle (congrArg some active)
      rw [(Engine.access_found found object action).1, judge_eq, judge, inactive,
        if_neg Bool.false_ne_true, refusal]
      split <;> rfl

theorem mem_victims_of_refused (sound : Sound engine past) (active : engine.status? id = some .active)
    (refused : (engine.access object id action).1.isAllowed = false) :
    other ∈ (engine.access object id action).1.victims ↔
      other ∈ blockers engine object id action ∧ id < other ∧
        engine.status? other = some .active := by
  have orderly := sound.chronicle.orderly
  have judged {holder : Holder} (member : holder ∈ engine.books.table.holders object) :
      isVictim engine.roster.made id holder = true ↔
        id < holder.id ∧ engine.status? holder.id = some .active := by
    obtain ⟨seat, victim, standing⟩ := orderly.exists_find?
      (sound.recorded.mem_holders.mp member).1
    have place := sound.recorded.seated orderly member
    rw [(Roster.find?_eq_some.mp standing).1, Option.some.injEq] at place
    rw [isVictim_iff orderly standing place.symm, sound.undecided.isRunning_iff standing]
  rw [victims_of_refused orderly active refused]
  simp only [List.mem_map, List.mem_filter, mem_conflicting, mem_blockers]
  constructor
  · intro given
    obtain ⟨holder, ⟨⟨member, different, conflict⟩, wounded⟩, rfl⟩ := given
    exact ⟨⟨holder, member, rfl, different, conflict⟩, (judged member).mp wounded⟩
  · intro given
    obtain ⟨⟨holder, member, rfl, different, conflict⟩, younger⟩ := given
    exact ⟨holder, ⟨⟨member, different, conflict⟩, (judged member).mpr younger⟩, rfl⟩

theorem names_of_refused (sound : Sound engine past) (active : engine.status? id = some .active)
    (refused : (engine.access object id action).1.isAllowed = false) :
    engine.Names (engine.access object id action).2 id (engine.access object id action).1 := by
  constructor
  case distinct =>
      have names : ((engine.books.table.holders object).map Holder.id).Nodup := by
        rw [sound.recorded.holders_ids]
        exact (eraseDups_pairwise _).nodup.filter _
      rw [victims_of_refused sound.chronicle.orderly active refused]
      exact names.sublist ((List.filter_sublist.trans List.filter_sublist).map _)
  case exact =>
      intro other
      rw [mem_victims_of_refused sound active refused, Engine.Wounds,
        status?_of_refused sound active refused]
      constructor
      · intro given
        obtain ⟨blocks, younger, running⟩ := given
        exact ⟨younger, running, if_pos ⟨blocks, younger⟩⟩
      · intro given
        obtain ⟨younger, running, wounded⟩ := given
        refine ⟨?_, younger, running⟩
        by_contra clear
        rw [if_neg fun both => clear both.1, running] at wounded
        contradiction

instance : Discipline.NamesVictims Locking where
  names {engine past} sound _ object id action := by
    have allowing (unrefused : engine.status? id = some .active →
        (engine.access object id action).1.isAllowed = true) (other : TxnId) (_ : id < other) :=
      status?_of_unrefused unrefused other
    by_cases active : engine.status? id = some .active
    · cases allowed : (engine.access object id action).1.isAllowed with
      | true => exact .nobody (Verdict.victims_of_allowed allowed) (allowing fun _ => allowed)
      | false => exact names_of_refused sound active allowed
    · exact .nobody (victims_of_inactive active) (allowing fun asking => absurd asking active)

end Locking

theorem Watermarks.victims_access (engine : Engine Watermarks) (object : ObjectId) (id : TxnId)
    (action : Action) : (engine.access object id action).1.victims = [] := by
  cases found : engine.roster.find? id with
  | none =>
      rw [(Engine.access_absent found object action).1]
      rfl
  | some entry =>
      rw [(Engine.access_found found object action).1, judge_eq, judge]
      repeat' split
      all_goals rfl

instance : Discipline.NamesVictims Watermarks where
  names {engine _} sound _ object id action :=
    .nobody (Watermarks.victims_access engine object id action) fun _ younger =>
      Watermarks.access_status?_of_spared sound.chronicle.orderly (.inl (Nat.ne_of_lt younger))

instance : Discipline.NamesVictims Ledger where
  names {engine _} _ _ object id action :=
    .nobody (Ledger.victims_access engine object id action)
      fun other _ => Ledger.access_status?_eq engine object id action other

namespace Engine

variable {β : Type} [Discipline β] {engine : Engine β} {past : List Event} {id : TxnId}

/-- An allowed access preserves which younger transactions are active. -/
theorem Names.active_iff [Discipline.OnlyForcesAborts β] {object : ObjectId} {action : Action}
    {other : TxnId}
    (names : engine.Names (engine.access object id action).2 id (engine.access object id action).1)
    (undecided : (engine.access object id action).2.Undecided)
    (orderly : (engine.access object id action).2.Orderly)
    (allowed : (engine.access object id action).1.isAllowed = true) (younger : id < other) :
    (engine.access object id action).2.status? other = some .active ↔
      engine.status? other = some .active := by
  refine ⟨active_of_access, fun active => ?_⟩
  have live : other ∈ (engine.access object id action).2.roster.live := by
    rw [(engine.access_live object id action).1]
    exact mem_live_of_status? active
  obtain ⟨status, standing⟩ := orderly.exists_status? live
  rcases undecided other status standing with rfl | rfl
  · exact standing
  · have victim := (names.exact other).mpr ⟨younger, active, standing⟩
    rw [Verdict.victims_of_allowed allowed] at victim
    contradiction

theorem accessFrom_names [Discipline.NamesVictims β]
    (sound : Discipline.RefusesOnlyConflicts.Sound engine past)
    (undecided : engine.Undecided) {verdict : Verdict} (nobody : verdict.victims = []) (id : TxnId)
    (action : Action) (objects : List ObjectId) :
    engine.Names (accessFrom verdict engine id action objects).2 id
      (accessFrom verdict engine id action objects).1 := by
  induction objects generalizing engine past verdict with
  | nil => exact .nobody nobody fun _ _ => rfl
  | cons object rest ih =>
      have first := Discipline.NamesVictims.names sound undecided object id action
      simp only [accessFrom]
      split
      · rename_i allowed
        have next := Discipline.RefusesOnlyConflicts.move sound (.access object id action)
        have orderly := (Discipline.RefusesOnlyConflicts.chronicle sound).orderly
        have still : (engine.access object id action).2.Undecided :=
          undecided.after orderly (.access object id action)
        have later := ih next still (Verdict.victims_of_allowed allowed)
        refine ⟨later.distinct, fun other => (later.exact other).trans ?_⟩
        refine and_congr_right fun younger => and_congr_left fun _ => ?_
        exact first.active_iff still (orderly.after (.access object id action)) allowed younger
      · exact first

end Engine

end Isolation
