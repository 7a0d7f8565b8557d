import Isolation.Proofs.Lock.Rule
import Isolation.Proofs.Victims

/-!
Exactness of the message of a request that has to wait. It names all blockers of the request and no
other transaction. A blocker that was wounded before, and has not ended yet, is named as well,
although it may be younger than the requester.
-/

namespace Isolation

namespace Locking

open LockTable

variable {engine : Engine Locking} {past : List Event} {id : TxnId} {object held : ObjectId}
  {action : Action} {named : List TxnId}

/-- The named transactions are the blockers of the request, and each of them is older or aborted. -/
structure Delays (engine : Engine Locking) (object : ObjectId) (id : TxnId) (action : Action)
    (named : List TxnId) : Prop where
  asking : engine.status? id = some .active
  somebody : named ≠ []
  holding : ∀ other, other ∈ named ↔ ∃ holder ∈ engine.books.table.holders object,
    holder.id = other ∧ other ≠ id ∧ holder.mode.conflictsWith (modeFor action) = true
  older : ∀ other ∈ named, other < id ∨ engine.status? other = some .aborted

/-- A refusal without victims names all blockers. -/
theorem held_of_refused (orderly : engine.Orderly) (active : engine.status? id = some .active)
    (refused : (engine.access object id action).1.isAllowed = false) :
    blockers engine object id action ≠ [] ∧
    ((engine.access object id action).1.victims = [] → (engine.access object id action).1 =
      .refused (.held object (blockers engine object id action))) := by
  obtain ⟨handle, txn, found, running⟩ := Engine.find?_of_active active
  have present := (Roster.find?_eq_some.mp found).2
  have name := orderly.id_of_find? found
  have blocked := refused
  rw [(access_active found running object action).1,
    acquire_isGranted _ object _ present running, Bool.or_eq_false_iff] at blocked
  obtain ⟨uncovered, crowded⟩ := blocked
  have others : conflicting (engine.books.table.holders object) txn.id (modeFor action) ≠ [] :=
    fun nobody => by simp [nobody] at crowded
  have attempted := acquire_of_blocked present (of_decide_eq_true running) uncovered others
  refine ⟨fun nobody => others (name ▸ List.map_eq_nil_iff.mp nobody), fun spared => ?_⟩
  rw [victims_of_refused orderly active refused, List.map_eq_nil_iff] at spared
  rw [age_of_find? orderly found, name] at attempted
  rw [(Engine.access_found found object action).1, judge_eq, judge, running, if_pos rfl]
  simp only [attempted, spared, if_true, verdict, blockers]

theorem not_isAllowed_of_held (told : (engine.access object id action).1 = .refused (.held held named)) :
    (engine.access object id action).1.isAllowed = false := by
  rw [told]
  rfl

/-- Only active requesters are refused with `held`. -/
theorem active_of_held (told : (engine.access object id action).1 = .refused (.held held named)) :
    engine.status? id = some .active := by
  by_contra idle
  cases found : engine.roster.find? id with
  | none =>
      rw [(Engine.access_absent found object action).1] at told
      simp at told
  | some entry =>
      have inactive : entry.2.isActive = false := by
        rw [Engine.status?_of_find? found] at idle
        exact decide_eq_false fun active => idle (congrArg some active)
      rw [(Engine.access_found found object action).1, judge_eq, judge, inactive,
        if_neg Bool.false_ne_true] at told
      exact refusal_ne_held entry.2 held named (Verdict.refused.inj told)

/-- A refusal has no victims if and only if every blocker is older or aborted. -/
theorem victims_eq_nil_iff (sound : Sound engine past) (active : engine.status? id = some .active)
    (refused : (engine.access object id action).1.isAllowed = false) :
    (engine.access object id action).1.victims = [] ↔ ∀ other ∈ blockers engine object id action,
      other < id ∨ engine.status? other = some .aborted := by
  simp only [List.eq_nil_iff_forall_not_mem, mem_victims_of_refused sound active refused, not_and]
  refine forall_congr' fun other => forall_congr' fun blocks => ?_
  obtain ⟨holder, member, rfl, different, _⟩ := mem_blockers.mp blocks
  obtain ⟨status, standing⟩ := sound.chronicle.orderly.exists_status?
    (sound.recorded.mem_holders.mp member).1
  rw [standing]
  rcases sound.undecided holder.id status standing with rfl | rfl
  · simp only [not_true_eq_false, imp_false, Nat.not_lt, Option.some.injEq, reduceCtorEq, or_false]
    exact ⟨fun above => Nat.lt_of_le_of_ne above different, Nat.le_of_lt⟩
  · simp

theorem delays_of_held (sound : Sound engine past)
    (told : (engine.access object id action).1 = .refused (.held held named)) :
    held = object ∧ Delays engine object id action named := by
  have active := active_of_held told
  have refused := not_isAllowed_of_held told
  have spared : (engine.access object id action).1.victims = [] := by
    rw [told]
    rfl
  obtain ⟨somebody, answer⟩ := held_of_refused sound.chronicle.orderly active refused
  obtain ⟨rfl, rfl⟩ := Refusal.held.inj (Verdict.refused.inj (told.symm.trans (answer spared)))
  exact ⟨rfl, active, somebody, fun _ => mem_blockers,
    (victims_eq_nil_iff sound active refused).mp spared⟩

/-- A refusal with `held` changes no transaction, so `Delays` holds after it as well. -/
theorem Delays.after (sound : Sound engine past) (delays : Delays engine object id action named)
    (refused : (engine.access object id action).1.isAllowed = false) :
    Delays (engine.access object id action).2 object id action named where
  asking := active_of_refused sound delays.asking refused
  somebody := delays.somebody
  holding other := by rw [delays.holding, holders_of_refused delays.asking refused]
  older other member := by
    rw [status?_of_refused sound delays.asking refused]
    refine (delays.older other member).imp_right fun aborted => ?_
    split
    · rfl
    · exact aborted

theorem mem_of_asked {objects : List ObjectId}
    (asks : .access object id action ∈ engine.asked id action objects) :
    object ∈ objects := by
  induction objects generalizing engine with
  | nil => contradiction
  | cons first rest ih =>
      simp only [Engine.asked, List.mem_cons] at asks
      rcases asks with here | later
      · cases here
        exact List.mem_cons_self
      · split at later
        · exact List.mem_cons_of_mem _ (ih later)
        · contradiction

theorem delays_of_held_batch (sound : Sound engine past) {objects : List ObjectId}
    (told : (engine.accessAll objects id action).1 = .refused (.held held named)) :
    held ∈ objects ∧ Delays (engine.accessAll objects id action).2 held id action named := by
  have stopped : (engine.accessAll objects id action).1.isAllowed = false := by
    rw [told]
    rfl
  obtain ⟨before, object, whole, _, same⟩ := Engine.asked_of_refused rfl stopped
  have answer := same.trans told
  obtain ⟨rfl, delays⟩ := delays_of_held (sound.moves before) answer
  have asks : .access held id action ∈ engine.asked id action objects := by simp [whole]
  refine ⟨mem_of_asked asks, ?_⟩
  rw [Engine.accessAll, Engine.accessFrom_eq_asked, whole, List.foldl_append]
  exact delays.after (sound.moves before) (not_isAllowed_of_held answer)

/-- The message of waiting requests, after every run. A refusal with `held` names exactly the
holders that conflict with the request, each of which is older than the requester or aborted; the
same holds for the last access of a batch. An active requester is refused with `held` if and only if
none of its blockers is both younger and not aborted. -/
theorem told_to_wait (recovery : Option RecoveryLog) (calls : List Call) :
    let engine := ((initial recovery).run calls).2
    (∀ object id action held named,
      (engine.access object id action).1 = .refused (.held held named) →
        held = object ∧ Delays engine object id action named) ∧
    (∀ objects id action held named,
      (engine.accessAll objects id action).1 = .refused (.held held named) →
        held ∈ objects ∧ Delays (engine.accessAll objects id action).2 held id action named) ∧
    (∀ object id action, engine.status? id = some .active →
      (engine.access object id action).1.isAllowed = false →
        ((∃ named, (engine.access object id action).1 = .refused (.held object named)) ↔
          ∀ other ∈ blockers engine object id action,
            other < id ∨ engine.status? other = some .aborted)) := by
  intro engine
  have sound := (initial_sound recovery).run calls
  refine ⟨fun object id action held named => delays_of_held sound,
    fun objects id action held named => delays_of_held_batch sound, ?_⟩
  intro object id action active refused
  constructor
  · intro given
    obtain ⟨named, told⟩ := given
    obtain ⟨_, delays⟩ := delays_of_held sound told
    exact fun other blocks => delays.older other ((delays.holding other).mpr (mem_blockers.mp blocks))
  · intro older
    exact ⟨_, (held_of_refused sound.chronicle.orderly active refused).2
      ((victims_eq_nil_iff sound active refused).mpr older)⟩

/-- After the younger of two readers has been wounded, the next request of the writer names it among
the older transactions. -/
theorem held_by_younger :
    let calls : List Call := [.begin, .begin, .begin, .access "x" 1 .read, .access "x" 3 .read,
      .access "x" 2 .write]
    let engine := ((initial none).run calls).2
    (engine.access "x" 2 .write).1 = .refused (.held "x" [1, 3]) ∧
      (engine.access "x" 2 .write).1.reason = "x held by older transaction(s) 1,3; retry" ∧
      ¬ ∀ other ∈ [1, 3], other < 2 := by
  intro calls engine
  exact ⟨by decide, by decide, by decide⟩

end Locking

end Isolation
