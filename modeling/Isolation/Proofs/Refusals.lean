import Isolation.Proofs.Marks
import Isolation.Proofs.Optimistic
import Isolation.Proofs.WoundWait

/-!
The specification of refusals that all disciplines share. An active transaction is refused, wounded
or rejected at its commit only if a transaction that it has met was granted a conflicting access: a
lock holder under locking, a transaction with a larger timestamp under timestamp ordering, and one
that committed since the creation of the record under validation.
-/

namespace Isolation

namespace Engine

variable {β : Type} {engine : Engine β} {past : List Event} {id : TxnId}

/-- The transactions that a live transaction has met: those that are live, those with larger
numbers, and those with an event since the creation of its record. -/
def Met (engine : Engine β) (past : List Event) (id other : TxnId) : Prop :=
  other ∈ engine.roster.live ∨ id < other ∨ ∃ event ∈ since id past, event.id = other

/-- Another transaction that has been met was granted a conflicting access. -/
def Opposed (engine : Engine β) (past : List Event) (own : Access) : Prop :=
  ∃ rival, .granted rival ∈ past ∧ rival.id ≠ own.id ∧ rival.Conflicts own ∧
    engine.Met past own.id rival.id

end Engine

/-- Refusals, wounds and rejections of active transactions are caused by conflicts. Each discipline
supplies the invariant `Sound` from which it proves this. -/
class Discipline.RefusesOnlyConflicts (β : Type) [Discipline β]
    extends Discipline.OnlyForcesAborts β where
  Sound : Engine β → List Event → Prop
  chronicle {engine : Engine β} {past : List Event} : Sound engine past → engine.Chronicle past
  move {engine : Engine β} {past : List Event} : Sound engine past →
    ∀ move, Sound (engine.after move) (past ++ engine.events move)
  refused {engine : Engine β} {past : List Event} {id : TxnId} {object : ObjectId} {action : Action} :
    Sound engine past → engine.status? id = some .active →
      (engine.access object id action).1.isAllowed = false → engine.Opposed past ⟨id, object, action⟩
  allowed {engine : Engine β} {past : List Event} {id : TxnId} {object : ObjectId} {action : Action} :
    Sound engine past → engine.status? id = some .active →
      (engine.access object id action).1.isAllowed = true →
        (engine.access object id action).2.status? id = some .active
  wounded {engine : Engine β} {past : List Event} {id other : TxnId} {object : ObjectId}
      {action : Action} :
    Sound engine past → engine.status? id = some .active → other ≠ id →
      (engine.access object other action).2.status? id ≠ some .active →
        other ∈ engine.roster.live ∧
          ∃ own, .granted own ∈ past ∧ own.id = id ∧ own.Conflicts ⟨other, object, action⟩
  rejected {engine : Engine β} {past : List Event} {id : TxnId} :
    Sound engine past → engine.status? id = some .active →
      (Discipline.accept engine.books id).1 = false →
        ∃ own, .granted own ∈ past ∧ own.id = id ∧ engine.Opposed past own

namespace Locking

variable {engine : Engine Locking} {past : List Event} {id other : TxnId} {object : ObjectId}
  {action : Action}

theorem conflict_of_mem_blockers (recorded : Recorded engine past)
    (blocks : other ∈ blockers engine object id action) :
    other ∈ engine.roster.live ∧ ∃ kind, .granted ⟨other, object, kind⟩ ∈ past ∧
      (⟨other, object, kind⟩ : Access).Conflicts ⟨id, object, action⟩ := by
  obtain ⟨holder, member, rfl, _, conflict⟩ := mem_blockers.mp blocks
  obtain ⟨live, claimed, _⟩ := recorded.mem_holders.mp member
  refine ⟨live, ?_⟩
  cases mode : holder.mode with
  | exclusive =>
      exact ⟨.write, (recorded.mode_eq_exclusive member).mp mode, rfl, .inl rfl⟩
  | shared =>
      obtain ⟨kind, granted⟩ := mem_claimants.mp claimed
      refine ⟨kind, granted, rfl, .inr ?_⟩
      rw [mode] at conflict
      cases action with
      | read => contradiction
      | write => rfl

instance : Discipline.RefusesOnlyConflicts Locking where
  Sound := Sound
  chronicle := Sound.chronicle
  move := Sound.move
  refused {engine past id object action} sound active refused := by
    have blocked : blockers engine object id action ≠ [] := by
      intro clear
      rw [isAllowed_of_unblocked sound.chronicle.orderly active clear] at refused
      contradiction
    obtain ⟨other, blocks⟩ := List.exists_mem_of_ne_nil _ blocked
    obtain ⟨_, _, _, different, _⟩ := mem_blockers.mp blocks
    obtain ⟨live, kind, granted, conflict⟩ := conflict_of_mem_blockers sound.recorded blocks
    exact ⟨_, granted, different, conflict, .inl live⟩
  allowed _ active allowed := (status?_of_unrefused (fun _ => allowed) _).trans active
  wounded {engine past id other object action} sound active _ wounded := by
    by_cases unrefused : engine.status? other = some .active →
        (engine.access object other action).1.isAllowed = true
    · exact absurd ((status?_of_unrefused unrefused id).trans active) wounded
    · obtain ⟨asking, refused⟩ := Classical.not_imp.mp unrefused
      rw [status?_of_refused sound asking (Bool.eq_false_iff.mpr refused)] at wounded
      have blocks : id ∈ blockers engine object other action := by
        by_contra clear
        rw [if_neg fun both => clear both.1] at wounded
        exact wounded active
      obtain ⟨_, kind, granted, conflict⟩ := conflict_of_mem_blockers sound.recorded blocks
      exact ⟨Engine.mem_live_of_status? asking, _, granted, rfl, conflict⟩
  rejected _ _ rejected := by contradiction

end Locking

namespace Watermarks

variable {engine : Engine Watermarks} {past : List Event} {id other : TxnId} {object : ObjectId}
  {action : Action}

structure Sound (engine : Engine Watermarks) (history : List Event) : Prop where
  chronicle : engine.Chronicle history
  exact : Exact engine history

theorem judge_made (scene : Scene Watermarks) (handle : Handle) (txn : Transaction)
    (object : ObjectId) (action : Action) {index : Handle}
    (spared : index ≠ handle ∨ (judge scene handle txn object action).1.isAllowed = true) :
    (judge scene handle txn object action).2.made[index]? = scene.made[index]? := by
  unfold judge at spared ⊢
  split
  · rfl
  · rename_i running
    rw [if_neg running] at spared
    split
    · rfl
    · rename_i timestamp stamped
      rw [stamped] at spared
      dsimp only at spared
      split
      · rfl
      · rename_i violation late
        rw [late] at spared
        rw [Array.getElem?_modify, if_neg (spared.resolve_right Bool.false_ne_true).symm]

theorem access_status?_of_spared (orderly : engine.Orderly)
    (spared : other ≠ id ∨ (engine.access object other action).1.isAllowed = true) :
    (engine.access object other action).2.status? id = engine.status? id := by
  cases found : engine.roster.find? other with
  | none => simp only [Engine.status?, Engine.access, found]
  | some entry =>
      rw [(Engine.access_found found object action).1, judge_eq] at spared
      simp only [Engine.status?, Engine.access, found, Roster.get?_eq_bind, judge_eq]
      cases seat : engine.roster.live[id]? with
      | none => rfl
      | some place =>
          rw [Option.bind_some, Option.bind_some, judge_made]
          refine spared.imp_left fun different same => different ?_
          have here := (orderly.seated seat).1
          have there := (orderly.seated (Roster.find?_eq_some.mp found).1).1
          lia

theorem exists_later_of_refused (sound : Sound engine past) (active : engine.status? id = some .active)
    (refused : (engine.access object id action).1.isAllowed = false) :
    ∃ rival, .granted rival ∈ past ∧ rival.Conflicts ⟨id, object, action⟩ ∧ id < rival.id := by
  obtain ⟨handle, txn, found, running⟩ := Engine.find?_of_active active
  have judged : (engine.access object id action).1.isAllowed = true ↔ _ :=
    access_isAllowed_iff sound.chronicle.orderly (Roster.get?_of_find? found)
      (isAborted_of_isActive running)
  rw [refused, sound.exact.violation?_eq_none_iff] at judged
  by_contra none
  refine Bool.false_ne_true (judged.mpr fun rival granted conflict => ?_)
  exact Nat.le_of_not_lt fun later => none ⟨rival, granted, conflict, later⟩

instance : Discipline.RefusesOnlyConflicts Watermarks where
  Sound := Sound
  chronicle := Sound.chronicle
  move sound move := ⟨sound.chronicle.move move, sound.exact.move sound.chronicle.orderly move⟩
  refused sound active refused := by
    obtain ⟨rival, granted, conflict, later⟩ := exists_later_of_refused sound active refused
    exact ⟨rival, granted, Nat.ne_of_gt later, conflict, .inr (.inl later)⟩
  allowed sound active allowed :=
    (access_status?_of_spared sound.chronicle.orderly (.inr allowed)).trans active
  wounded sound active different wounded :=
    absurd ((access_status?_of_spared sound.chronicle.orderly (.inl different)).trans active) wounded
  rejected _ _ rejected := by contradiction

end Watermarks

namespace Ledger

variable {engine : Engine Ledger} {past : List Event} {id other : TxnId} {object : ObjectId}
  {action : Action}

structure Sound (engine : Engine Ledger) (history : List Event) : Prop where
  chronicle : engine.Chronicle history
  agrees : engine.books.Agrees history

theorem Sound.move (sound : Sound engine past) (move : Move) :
    Sound (engine.after move) (past ++ engine.events move) where
  chronicle := sound.chronicle.move move
  agrees := sound.agrees.move sound.chronicle move

theorem access_roster (engine : Engine Ledger) (object : ObjectId) (target : TxnId)
    (action : Action) : (engine.access object target action).2.roster = engine.roster := by
  cases found : engine.roster.find? target with
  | none => simp only [Engine.access, found]
  | some entry =>
      simp only [Engine.access, found, judge_eq, judge]
      split <;> rfl

theorem access_status?_eq (engine : Engine Ledger) (object : ObjectId) (other : TxnId)
    (action : Action) (id : TxnId) :
    (engine.access object other action).2.status? id = engine.status? id := by
  rw [Engine.status?, access_roster, Engine.status?]

theorem isAllowed_of_active (active : engine.status? id = some .active) :
    (engine.access object id action).1.isAllowed = true := by
  obtain ⟨handle, txn, found, running⟩ := Engine.find?_of_active active
  rw [(Engine.access_found found object action).1, judge_eq, judge, isAborted_of_isActive running]
  rfl

instance : Discipline.RefusesOnlyConflicts Ledger where
  Sound := Sound
  chronicle := Sound.chronicle
  move := Sound.move
  refused _ active refused := by
    rw [isAllowed_of_active active] at refused
    contradiction
  allowed {engine _ id object action} _ active _ :=
    (access_status?_eq engine object id action id).trans active
  wounded {engine _ id other object action} _ active _ wounded :=
    absurd ((access_status?_eq engine object other action id).trans active) wounded
  rejected {engine past id} sound active rejected := by
    have uncommitted := sound.agrees.not_mem_of_live sound.chronicle (Engine.mem_live_of_status? active)
    rw [accept_eq] at rejected
    have opposed : ¬ Unopposed id past := by
      rw [← sound.agrees.isValid_iff uncommitted]
      exact Bool.eq_false_iff.mp rejected
    simp only [Unopposed, not_forall, not_not] at opposed
    obtain ⟨rival, committed, object, written, read⟩ := opposed
    have ended := mem_rivals.mp committed
    refine ⟨⟨id, object, .read⟩, mem_of_mem_since (mem_touched.mp read), rfl,
      ⟨rival, object, .write⟩, mem_of_mem_since (mem_touched.mp written), ?_, ⟨rfl, .inl rfl⟩,
      .inr (.inr ⟨_, ended, rfl⟩)⟩
    intro same
    have closed := sound.chronicle.closed _ (mem_of_mem_since ended) id
      (decide_eq_true same)
    exact closed (Engine.mem_live_of_status? active)

end Ledger

end Isolation
