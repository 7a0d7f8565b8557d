import Isolation.Proofs.History
import Isolation.Proofs.Lock.Table

/-!
Strict two-phase locking. Every granted access of a live transaction is covered by a lock that it
holds until it ends. Hence the end of the first transaction separates any two conflicting grants,
and the conflict order is contained in the order of ends.
-/

namespace Isolation

namespace LockMode

theorem conflictsWith_modeFor {first second : Action} :
    (Locking.modeFor first).conflictsWith (Locking.modeFor second) = true ↔
      first = .write ∨ second = .write := by
  cases first <;> cases second <;> decide

end LockMode

namespace Locking

open LockTable

variable {engine start : Engine Locking} {past : List Event}

theorem judge_eq (scene : Scene Locking) (handle : Handle) (txn : Transaction) (object : ObjectId)
    (action : Action) :
    Discipline.judge scene handle txn object action = judge scene handle txn object action := rfl

theorem verdict_isAllowed (txn : Transaction) (object : ObjectId) (mode : LockMode)
    (outcome : LockOutcome) : (verdict txn object mode outcome).isAllowed = outcome.isGranted := by
  cases outcome <;> rfl

theorem refusal_ne_held (txn : Transaction) (object : ObjectId) (blockers : List TxnId) :
    refusal txn ≠ .held object blockers := by
  unfold refusal
  split <;> simp

/-- The effect of an access on the lock table: `Granted` on the entry of its object if it is
allowed, and no change of any holders otherwise. -/
theorem access_cases (orderly : engine.Orderly) (object : ObjectId) (id : TxnId)
    (action : Action) :
    ((engine.access object id action).1.isAllowed = false ∧
      ∀ other, (engine.access object id action).2.books.table.holders other =
        engine.books.table.holders other) ∨
    (Granted (engine.books.table.holders object)
        ((engine.access object id action).2.books.table.holders object) id (modeFor action) ∧
      ∀ other, object ≠ other →
        (engine.access object id action).2.books.table.holders other =
          engine.books.table.holders other) := by
  cases found : engine.roster.find? id with
  | none =>
      obtain ⟨verdict, books⟩ := Engine.access_absent found object action
      rw [verdict, books]
      exact .inl ⟨rfl, fun _ => rfl⟩
  | some entry =>
      obtain ⟨handle, txn⟩ := entry
      have present := (Roster.find?_eq_some.mp found).2
      obtain ⟨verdict, books⟩ := Engine.access_found found object action
      rw [verdict, books, judge_eq]
      unfold judge
      split
      · simp only [verdict_isAllowed]
        cases outcome : (engine.books.table.acquire engine.roster.made object handle
            (modeFor action)).outcome.isGranted with
        | false => exact .inl ⟨rfl, acquire_refused present outcome⟩
        | true =>
            have granted := acquire_granted present outcome
            rw [orderly.id_of_find? found] at granted
            exact .inr ⟨granted, fun other different => acquire_other present different⟩
      · exact .inl ⟨rfl, fun _ => rfl⟩

/-- Ending a transaction releases all its locks and no others. -/
theorem finish_table {id : TxnId} {handle : Handle} {txn : Transaction}
    (found : engine.roster.find? id = some (handle, txn)) (commit : Bool) :
    (engine.finish id commit).2.books.table = engine.books.table.release id := by
  rw [Engine.finish_books found, Engine.conclude_books (fun _ => rfl)]
  rfl

/-- The invariant of strict locking: granted accesses of live transactions are covered, and holders
are compatible. -/
structure Secured (engine : Engine Locking) (history : List Event) : Prop where
  held : ∀ {access : Access}, .granted access ∈ history → access.id ∈ engine.roster.live →
    Holds (engine.books.table.holders access.object) access.id (modeFor access.action)
  compatible : ∀ object, Compatible (engine.books.table.holders object)

namespace Secured

/-- Releasing the locks of a transaction that leaves the roster preserves the invariant. -/
theorem release {next : Engine Locking} {id : TxnId} {events : List Event}
    (secured : Secured engine past)
    (table : next.books.table = engine.books.table.release id)
    (live : ∀ other, other ∈ next.roster.live → other ≠ id ∧ other ∈ engine.roster.live)
    (ungranted : ∀ access, .granted access ∉ events) : Secured next (past ++ events) where
  held {access} granted present := by
    obtain ⟨different, before⟩ := live access.id present
    have old := (List.mem_append.mp granted).resolve_right (ungranted access)
    rw [table, holders_release]
    exact (secured.held old before).filter_ne different
  compatible object := by
    rw [table, holders_release]
    exact (secured.compatible object).filter _

theorem move (chronicle : engine.Chronicle past) (secured : Secured engine past) (move : Move) :
    Secured (engine.after move) (past ++ engine.events move) := by
  cases move with
  | begin =>
      refine ⟨fun {access} granted present => ?_, secured.compatible⟩
      have old : .granted access ∈ past := by simpa [Engine.events] using granted
      rcases (engine.mem_live_after .begin access.id).mp present with ⟨before, _⟩ | ⟨begun, _⟩
      · exact secured.held old before
      · have bound := (chronicle.bounded _ old).2
        simp only [Event.id] at bound
        lia
  | log id row =>
      obtain ⟨books, live, _⟩ := engine.log_frame id row
      simp only [Engine.after, Engine.events, List.append_nil]
      constructor
      · intro access granted present
        rw [books]
        exact secured.held granted (live ▸ present)
      · intro object
        rw [books]
        exact secured.compatible object
  | access object id action =>
      obtain ⟨live, _⟩ := engine.access_live object id action
      simp only [Engine.after, Engine.events]
      rcases access_cases chronicle.orderly object id action with
        ⟨refused, same⟩ | ⟨granted, others⟩
      · rw [refused]
        constructor
        · intro access granted present
          rw [same]
          exact secured.held (by simpa using granted) (live ▸ present)
        · intro other
          rw [same]
          exact secured.compatible other
      · constructor
        · intro access member present
          rw [live] at present
          rcases List.mem_append.mp member with old | new
          · have before := secured.held old present
            by_cases here : object = access.object
            · subst here
              exact granted.kept before
            · rw [others _ here]
              exact before
          · split at new
            · cases List.mem_singleton.mp new
              exact granted.holds
            · contradiction
        · intro other
          by_cases here : object = other
          · subst here
            exact granted.compatible (secured.compatible object)
          · rw [others _ here]
            exact secured.compatible other
  | finish id commit =>
      cases found : engine.roster.find? id with
      | none =>
          simp only [Engine.after, Engine.events, Engine.finish_absent found, List.append_nil]
          exact secured
      | some entry =>
          have roster := (Engine.finish_roster found commit).1
          apply secured.release (finish_table found commit)
          · intro other present
            simp only [roster, Roster.remove, Std.ExtTreeMap.mem_erase,
              Std.compare_ne_eq_iff_ne] at present
            exact ⟨fun same => present.1 same.symm, present.2⟩
          · intro access granted
            cases (Engine.access_of_granted granted).1
  | evict id =>
      cases found : engine.roster.find? id with
      | none =>
          simp only [Engine.after, Engine.events, Engine.evict_absent found, found,
            Option.isSome_none, Bool.false_eq_true, if_false, List.append_nil]
          exact secured
      | some entry =>
          have table : (engine.evict id).books.table = engine.books.table.release id := by
            rw [Engine.evict_found found]
            rfl
          apply secured.release table
          · intro other present
            simp only [Engine.evict_found found, Roster.remove, Std.ExtTreeMap.mem_erase,
              Std.compare_ne_eq_iff_ne] at present
            exact ⟨fun same => present.1 same.symm, present.2⟩
          · intro access granted
            cases (Engine.access_of_granted granted).1

end Secured

def initial (recovery : Option RecoveryLog) : Engine Locking :=
  { books := { recovery } }

theorem initial_orderly (recovery : Option RecoveryLog) : (initial recovery).Orderly where
  numbered := rfl
  seated seat := by simp [initial] at seat

theorem initial_secured (recovery : Option RecoveryLog) : Secured (initial recovery) [] where
  held granted := by contradiction
  compatible object := by
    intro first member
    simp [initial, LockTable.holders, LockTable.entry] at member

theorem secured_of_reaches (orderly : start.Orderly) (secured : Secured start [])
    (reached : start.Reaches past engine) : Secured engine past := by
  induction reached with
  | start => exact secured
  | move reached move ih => exact ih.move (reached.chronicle orderly) move

/-- A granted access does not conflict with an earlier access of another live transaction. -/
theorem not_mem_live_of_granted (chronicle : engine.Chronicle past) (secured : Secured engine past)
    {move : Move} {first second : Access} (granted : .granted second ∈ engine.events move)
    (earlier : .granted first ∈ past) (different : first.id ≠ second.id)
    (conflict : first.Conflicts second) : first.id ∉ engine.roster.live := by
  intro live
  obtain ⟨sameObject, writes⟩ := conflict
  obtain ⟨_, allowed⟩ := Engine.access_of_granted granted
  rcases access_cases chronicle.orderly second.object second.id second.action with
    ⟨refused, _⟩ | ⟨taken, _⟩
  · rw [refused] at allowed
    contradiction
  · have before := secured.held earlier live
    rw [sameObject] at before
    obtain ⟨old, oldMember, oldId, oldCovers⟩ := taken.kept before
    obtain ⟨new, newMember, newId, newCovers⟩ := taken.holds
    have tolerated := taken.compatible (secured.compatible second.object) old oldMember new newMember
      (by rw [oldId, newId]; exact different)
    have modes := LockMode.conflictsWith_modeFor.mpr writes
    have blocked := LockMode.conflictsWith_of_covers oldCovers modes
    rw [LockMode.conflictsWith_comm] at blocked
    have clash := LockMode.conflictsWith_of_covers newCovers blocked
    rw [LockMode.conflictsWith_comm, tolerated] at clash
    contradiction

/-- The transaction of an earlier conflicting access has ended before the access is granted. -/
theorem ended_of_granted (orderly : start.Orderly) (secured : Secured start []) {rest : List Event}
    {first second : Access} (reached : start.Reaches (past ++ .granted second :: rest) engine)
    (earlier : .granted first ∈ past) (different : first.id ≠ second.id)
    (conflict : first.Conflicts second) : ∃ final ∈ past, final.ends first.id = true := by
  obtain ⟨before, move, reachedBefore, granted⟩ := reached.split
  have chronicle := reachedBefore.chronicle orderly
  have gone := not_mem_live_of_granted chronicle
    (secured_of_reaches orderly secured reachedBefore)
    (granted ▸ List.mem_singleton_self _) earlier different conflict
  exact (chronicle.resolved _ earlier).resolve_left gone

/-- The edges of the conflict graph of a history. -/
def ConflictEdge (history : List Event) (earlier later : TxnId) : Prop :=
  ∃ (before between rest : List Event) (first second : Access),
    history = before ++ .granted first :: (between ++ .granted second :: rest) ∧
      first.id = earlier ∧ second.id = later ∧ earlier ≠ later ∧ first.Conflicts second

/-- The position of the event that ends a transaction, and the length of the history if there is
none. -/
def endOf (history : List Event) (id : TxnId) : Nat :=
  history.findIdx (·.ends id)

section Ordering

variable {before between rest : List Event} {first second : Access}

theorem ended_between
    (settled : Settled (before ++ .granted first :: (between ++ .granted second :: rest)))
    (ended : ∃ final ∈ before ++ .granted first :: between, final.ends first.id = true) :
    ∃ final ∈ between, final.ends first.id = true := by
  obtain ⟨final, member, ends⟩ := ended
  rcases List.mem_append.mp member with early | late
  · have apart := (List.pairwise_append.mp settled).2.2 final early (.granted first) (by simp)
    exact absurd rfl (apart first.id ends)
  · rcases List.mem_cons.mp late with grant | inside
    · rw [grant] at ends
      contradiction
    · exact ⟨final, inside, ends⟩

theorem endOf_lt_endOf
    (settled : Settled (before ++ .granted first :: (between ++ .granted second :: rest)))
    (ended : ∃ final ∈ before ++ .granted first :: between, final.ends first.id = true) :
    endOf (before ++ .granted first :: (between ++ .granted second :: rest)) first.id <
      endOf (before ++ .granted first :: (between ++ .granted second :: rest)) second.id := by
  have regroup : before ++ .granted first :: (between ++ .granted second :: rest) =
      (before ++ .granted first :: between) ++ .granted second :: rest := by simp
  rw [regroup] at settled ⊢
  generalize before ++ .granted first :: between = past at settled ended ⊢
  have inside : past.findIdx (·.ends first.id) < past.length :=
    List.findIdx_lt_length_of_exists ended
  have outside : past.findIdx (·.ends second.id) = past.length := by
    apply List.findIdx_eq_length.mpr
    intro event member
    apply Bool.eq_false_iff.mpr
    intro ends
    have apart := (List.pairwise_append.mp settled).2.2 event member (.granted second) (by simp)
    exact apart second.id ends rfl
  simp only [endOf, List.findIdx_append, inside, if_true, outside, Nat.lt_irrefl, if_false]
  omega

end Ordering

/-- Strict two-phase locking, for every run. The end of the first transaction lies between two
conflicting grants of distinct transactions. Conflict edges lead to later ends, so the conflict
graph is acyclic. A grant on an object that another transaction has written is preceded by the end
of the writer. -/
theorem strict_two_phase (recovery : Option RecoveryLog) (calls : List Call) :
    let history := (initial recovery).history calls
    (∀ (before between rest : List Event) (first second : Access),
      history = before ++ .granted first :: (between ++ .granted second :: rest) →
        first.id ≠ second.id → first.Conflicts second →
          ∃ final ∈ between, final.ends first.id = true) ∧
    (∀ earlier later, ConflictEdge history earlier later →
      endOf history earlier < endOf history later) ∧
    (∀ id, ¬ Relation.TransGen (ConflictEdge history) id id) ∧
    (∀ (before rest : List Event) (written access : Access),
      history = before ++ .granted access :: rest → .granted written ∈ before →
        written.object = access.object → written.action = .write → written.id ≠ access.id →
          ∃ final ∈ before, final.ends written.id = true) := by
  intro history
  have orderly := initial_orderly recovery
  have secured := initial_secured recovery
  have reached : (initial recovery).Reaches history ((initial recovery).run calls).2 :=
    Engine.reaches_run _ calls
  have settled := (reached.chronicle orderly).settled
  have ended {before between rest : List Event} {first second : Access}
      (whole : history = before ++ .granted first :: (between ++ .granted second :: rest))
      (different : first.id ≠ second.id) (conflict : first.Conflicts second) :
      ∃ final ∈ before ++ .granted first :: between, final.ends first.id = true := by
    have regroup : history =
        (before ++ .granted first :: between) ++ .granted second :: rest := by simp [whole]
    rw [regroup] at reached
    exact ended_of_granted orderly secured reached (by simp) different conflict
  have ordered {earlier later : TxnId} (edge : ConflictEdge history earlier later) :
      endOf history earlier < endOf history later := by
    obtain ⟨before, between, rest, first, second, whole, rfl, rfl, different, conflict⟩ := edge
    have between := ended whole different conflict
    rw [whole] at settled ⊢
    exact endOf_lt_endOf settled between
  refine ⟨?_, fun _ _ => ordered, ?_, ?_⟩
  · intro before between rest first second whole different conflict
    have found := ended whole different conflict
    rw [whole] at settled
    exact ended_between settled found
  · intro id cycle
    have rises {earlier later : TxnId}
        (path : Relation.TransGen (ConflictEdge history) earlier later) :
        endOf history earlier < endOf history later := by
      induction path with
      | single edge => exact ordered edge
      | tail _ edge ih => exact Nat.lt_trans ih (ordered edge)
    exact Nat.lt_irrefl _ (rises cycle)
  · intro before rest written access whole granted sameObject writes different
    rw [whole] at reached
    exact ended_of_granted orderly secured reached granted different ⟨sameObject, .inl writes⟩

end Locking

end Isolation
