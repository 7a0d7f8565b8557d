import Mathlib.Data.List.Basic
import Mathlib.Data.List.Induction
import Isolation.Proofs.Locking
import Isolation.Proofs.Standing

/-!
The holders of an object as a function of the history: the live transactions that were granted an
access to it, in order of their first grants, each in the strongest mode that it was granted.
-/

namespace Isolation

theorem eraseDups_concat {α : Type} [DecidableEq α] (values : List α) (last : α) :
    (values ++ [last]).eraseDups =
      if last ∈ values then values.eraseDups else values.eraseDups ++ [last] := by
  have single : [last].eraseDups = [last] := by simp [List.eraseDups_cons]
  rw [List.eraseDups_append, List.removeAll]
  split <;> rename_i member <;> simp [member, single]

theorem eraseDups_pairwise {α : Type} [DecidableEq α] (values : List α) :
    values.eraseDups.Pairwise fun first second => values.idxOf first < values.idxOf second := by
  induction values using List.reverseRecOn with
  | nil => exact .nil
  | append_singleton rest last ih =>
      have kept : rest.eraseDups.Pairwise fun first second =>
          (rest ++ [last]).idxOf first < (rest ++ [last]).idxOf second := by
        refine ih.imp_of_mem fun {first second} firstMember secondMember before => ?_
        rw [List.idxOf_append_of_mem (List.mem_eraseDups.mp firstMember),
          List.idxOf_append_of_mem (List.mem_eraseDups.mp secondMember)]
        exact before
      rw [eraseDups_concat]
      split
      · exact kept
      · rename_i new
        refine List.pairwise_append.mpr ⟨kept, List.pairwise_singleton _ _, ?_⟩
        intro first member second same
        have old := List.mem_eraseDups.mp member
        rw [List.mem_singleton.mp same, List.idxOf_append_of_mem old, List.idxOf_append_of_notMem new]
        exact Nat.lt_add_right _ (List.idxOf_lt_length_of_mem old)

namespace Locking

open LockTable

variable {engine start : Engine Locking} {past : List Event} {id : TxnId} {object : ObjectId}

def claimants (history : List Event) (object : ObjectId) : List TxnId :=
  (grantees (·.object = object) history).eraseDups

/-- The lock of a transaction that was granted accesses to the object. -/
def lockOf (history : List Event) (object : ObjectId) (id : TxnId) : Holder where
  handle := id - 1
  id := id
  mode := if .granted ⟨id, object, .write⟩ ∈ history then .exclusive else .shared

theorem mem_claimants {history : List Event} :
    id ∈ claimants history object ↔ ∃ action, .granted ⟨id, object, action⟩ ∈ history := by
  rw [claimants, List.mem_eraseDups, mem_grantees]
  constructor
  · intro given
    obtain ⟨access, granted, same, rfl⟩ := given
    rw [← of_decide_eq_true same]
    exact ⟨access.action, granted⟩
  · intro given
    obtain ⟨action, granted⟩ := given
    exact ⟨_, granted, decide_eq_true rfl, rfl⟩

theorem grantees_concat (kind : Access → Bool) (history : List Event) (access : Access) :
    grantees kind (history ++ [.granted access]) =
      if kind access then grantees kind history ++ [access.id] else grantees kind history := by
  rw [grantees_append]
  split <;> rename_i here <;> simp [grantees, accesses, Event.access?, here]

theorem claimants_concat (history : List Event) (access : Access) (object : ObjectId) :
    claimants (history ++ [.granted access]) object =
      if access.object = object then
        if access.id ∈ claimants history object then claimants history object
        else claimants history object ++ [access.id]
      else claimants history object := by
  simp only [claimants, grantees_concat, List.mem_eraseDups, decide_eq_true_eq]
  split
  · exact eraseDups_concat _ _
  · rfl

theorem claimants_keep {events : List Event} (ungranted : accesses events = []) (past : List Event)
    (object : ObjectId) : claimants (past ++ events) object = claimants past object := by
  have none : grantees (·.object = object) events = [] := by
    rw [grantees, ungranted]
    rfl
  rw [claimants, grantees_append, none, List.append_nil, claimants]

theorem lockOf_keep {events : List Event}
    (unwritten : .granted ⟨id, object, .write⟩ ∉ events) (past : List Event) :
    lockOf (past ++ events) object id = lockOf past object id := by
  simp [lockOf, unwritten]

theorem lockOf_concat (history : List Event) (access : Access) (object : ObjectId) (id : TxnId) :
    lockOf (history ++ [.granted access]) object id =
      if access = ⟨id, object, .write⟩ then { lockOf history object id with mode := .exclusive }
      else lockOf history object id := by
  by_cases written : access = ⟨id, object, .write⟩
  · simp [lockOf, written]
  · simp [lockOf, written, Ne.symm written]

theorem heldBy_map_lockOf (history : List Event) (object : ObjectId) (ids : List TxnId)
    (id : TxnId) : heldBy (ids.map (lockOf history object)) id =
      if id ∈ ids then some (lockOf history object id).mode else none := by
  induction ids with
  | nil => rfl
  | cons first rest ih =>
      by_cases here : first = id
      · subst here
        simp [heldBy, lockOf]
      · simp only [heldBy, List.map_cons, List.find?_cons, lockOf, here, decide_false,
          List.mem_cons, Ne.symm here, false_or] at ih ⊢
        exact ih

theorem lockOf_of_covers {history : List Event} (covers :
    (lockOf history object id).mode.covers (modeFor .write) = true) :
    { lockOf history object id with mode := .exclusive } = lockOf history object id := by
  cases mode : (lockOf history object id).mode with
  | shared =>
      rw [mode] at covers
      contradiction
  | exclusive => rw [← mode]

theorem write_of_short {held : LockMode} {action : Action}
    (short : held.covers (modeFor action) = false) : action = .write := by
  cases action with
  | read => cases held <;> contradiction
  | write => rfl

/-- The holders of each object are the locks of the live transactions among its grantees. -/
def Recorded (engine : Engine Locking) (history : List Event) : Prop :=
  ∀ object, engine.books.table.holders object =
    ((claimants history object).filter (· ∈ engine.roster.live)).map (lockOf history object)

theorem access_active {handle : Handle} {txn : Transaction}
    (found : engine.roster.find? id = some (handle, txn)) (active : txn.isActive = true)
    (object : ObjectId) (action : Action) :
    let attempt := engine.books.table.acquire engine.roster.made object handle (modeFor action)
    (engine.access object id action).1.isAllowed = attempt.outcome.isGranted ∧
      (engine.access object id action).2.books.table = attempt.table ∧
      (engine.access object id action).2.roster.made = attempt.made := by
  simp only [Engine.access, found, judge_eq, judge, active, if_true, verdict_isAllowed, and_self]

theorem access_inactive (idle : engine.status? id ≠ some .active) (object : ObjectId)
    (action : Action) :
    (engine.access object id action).1.isAllowed = false ∧
      (engine.access object id action).2.books = engine.books ∧
      (engine.access object id action).2.roster = engine.roster := by
  unfold Engine.access
  cases found : engine.roster.find? id with
  | none => exact ⟨rfl, rfl, rfl⟩
  | some entry =>
      have inactive : entry.2.isActive = false := by
        rw [Engine.status?_of_find? found] at idle
        exact decide_eq_false fun active => idle (congrArg some active)
      simp [judge_eq, judge, inactive, Verdict.isAllowed]

namespace Recorded

theorem keep {next : Engine Locking} {events : List Event} (recorded : Recorded engine past)
    (ungranted : accesses events = [])
    (left : ∀ object, next.books.table.holders object =
      (engine.books.table.holders object).filter (·.id ∈ next.roster.live))
    (live : ∀ object, ∀ id ∈ claimants past object, id ∈ next.roster.live →
      id ∈ engine.roster.live) : Recorded next (past ++ events) := by
  intro object
  have unwritten (id : TxnId) : .granted ⟨id, object, .write⟩ ∉ events := fun granted => by
    have member := mem_accesses.mpr granted
    rw [ungranted] at member
    contradiction
  rw [left object, recorded object, claimants_keep ungranted, List.filter_map, List.filter_filter]
  have same : (claimants past object).filter (fun id => id ∈ next.roster.live) =
      (claimants past object).filter fun id =>
        ((fun holder : Holder => decide (holder.id ∈ next.roster.live)) ∘ lockOf past object) id &&
          decide (id ∈ engine.roster.live) := by
    apply List.filter_congr
    intro id member
    by_cases present : id ∈ next.roster.live
    · simp [lockOf, present, live object id member present]
    · simp [lockOf, present]
  rw [same]
  exact List.map_congr_left fun id _ => (lockOf_keep (unwritten id) past).symm

/-- A granted access preserves the invariant in each of the three cases of a granted request: a
covering lock, an upgrade and a new lock. -/
theorem grant {next : Engine Locking} {handle : Handle} {action : Action}
    (recorded : Recorded engine past) (seat : handle + 1 = id) (owner : id ∈ engine.roster.live)
    (live : next.roster.live = engine.roster.live)
    (table : (heldBy (engine.books.table.holders object) id).any (·.covers (modeFor action)) = true ∧
        next.books.table = engine.books.table.put object (engine.books.table.entry object) ∨
      (heldBy (engine.books.table.holders object) id).any (·.covers (modeFor action)) = false ∧
        next.books.table = engine.books.table.put object
          (if (heldBy (engine.books.table.holders object) id).isSome then
            (engine.books.table.entry object).upgrade id
          else (engine.books.table.entry object).push { handle, id, mode := modeFor action })) :
    Recorded next (past ++ [.granted ⟨id, object, action⟩]) := by
  have held := heldBy_map_lockOf past object
    ((claimants past object).filter (· ∈ engine.roster.live)) id
  rw [← recorded object] at held
  simp only [List.mem_filter, owner, decide_true, and_true] at held
  intro target
  rw [live, claimants_concat]
  by_cases here : object = target
  · subst here
    rw [if_pos rfl]
    by_cases known : id ∈ claimants past object
    · rw [if_pos known] at held ⊢
      rw [held, Option.any_some, Option.isSome_some, if_pos rfl] at table
      rcases table with ⟨covers, left⟩ | ⟨short, left⟩
      · rw [left, holders_put_same, recorded object]
        refine List.map_congr_left fun other _ => ?_
        rw [lockOf_concat]
        split
        · rename_i same
          cases same
          exact (lockOf_of_covers covers).symm
        · rfl
      · rw [left, holders_put, if_pos rfl, LockEntry.holders_upgrade, ← LockTable.holders,
          recorded object, upgrade, List.map_map]
        refine List.map_congr_left fun other _ => ?_
        rw [lockOf_concat, write_of_short short]
        by_cases own : other = id
        · simp [lockOf, own]
        · simp [lockOf, own, Ne.symm own]
    · rw [if_neg known] at held ⊢
      rw [held] at table
      obtain ⟨_, left⟩ := table.resolve_left (by simp)
      rw [left, holders_put, if_pos rfl]
      simp only [Option.isSome_none, Bool.false_eq_true, if_false, LockEntry.holders_push]
      rw [← LockTable.holders, recorded object, List.filter_append, List.map_append]
      congr 1
      · refine List.map_congr_left fun other member => ?_
        rw [lockOf_concat, if_neg]
        intro same
        cases same
        exact known (List.mem_filter.mp member).1
      · have first : .granted ⟨id, object, .write⟩ ∉ past := fun granted =>
          known (mem_claimants.mpr ⟨.write, granted⟩)
        have place : id - 1 = handle := by lia
        rw [List.filter_singleton, decide_eq_true owner]
        cases action <;> simp [lockOf, first, modeFor, place]
  · have other : lockOf (past ++ [.granted ⟨id, object, action⟩]) target = lockOf past target := by
      funext other
      rw [lockOf_concat, if_neg]
      intro same
      cases same
      exact here rfl
    rw [if_neg here, other, ← recorded target]
    rcases table with ⟨_, left⟩ | ⟨_, left⟩ <;> rw [left, holders_put, if_neg here]

theorem mem_holders (recorded : Recorded engine past) {holder : Holder} :
    holder ∈ engine.books.table.holders object ↔
      holder.id ∈ engine.roster.live ∧ holder.id ∈ claimants past object ∧
        lockOf past object holder.id = holder := by
  rw [recorded object, List.mem_map]
  constructor
  · intro given
    obtain ⟨id, member, rfl⟩ := given
    obtain ⟨claimed, live⟩ := List.mem_filter.mp member
    exact ⟨of_decide_eq_true live, claimed, rfl⟩
  · intro given
    obtain ⟨live, claimed, same⟩ := given
    exact ⟨holder.id, List.mem_filter.mpr ⟨claimed, decide_eq_true live⟩, same⟩

theorem stay {next : Engine Locking} {events : List Event} (recorded : Recorded engine past)
    (ungranted : accesses events = [])
    (holders : ∀ object, next.books.table.holders object = engine.books.table.holders object)
    (live : ∀ id ∈ engine.roster.live, id ∈ next.roster.live)
    (old : ∀ object, ∀ id ∈ claimants past object, id ∈ next.roster.live →
      id ∈ engine.roster.live) : Recorded next (past ++ events) := by
  apply recorded.keep ungranted _ old
  intro object
  rw [holders object, List.filter_eq_self.mpr]
  exact fun holder member => decide_eq_true (live _ (recorded.mem_holders.mp member).1)

theorem leave {next : Engine Locking} {events : List Event} (recorded : Recorded engine past)
    (ungranted : accesses events = []) (table : next.books.table = engine.books.table.release id)
    (live : ∀ other, other ∈ next.roster.live ↔ other ≠ id ∧ other ∈ engine.roster.live) :
    Recorded next (past ++ events) := by
  apply recorded.keep ungranted
  · intro object
    rw [table, holders_release]
    refine List.filter_congr fun holder member => ?_
    have owner := (recorded.mem_holders.mp member).1
    simp [live holder.id, owner]
  · exact fun object other _ present => ((live other).mp present).2

theorem move (chronicle : engine.Chronicle past) (recorded : Recorded engine past) (move : Move) :
    Recorded (engine.after move) (past ++ engine.events move) := by
  cases move with
  | begin =>
      apply recorded.stay
      · rfl
      · exact fun object => rfl
      · exact fun id present => (engine.mem_live_after .begin id).mpr
          (.inl ⟨present, fun event member => by contradiction⟩)
      · intro object id claimed present
        obtain ⟨action, granted⟩ := mem_claimants.mp claimed
        have bound := (chronicle.bounded _ granted).2
        rcases (engine.mem_live_after .begin id).mp present with ⟨before, _⟩ | ⟨new, _⟩
        · exact before
        · simp only [Event.id] at bound
          lia
  | log id row =>
      obtain ⟨books, live, _⟩ := engine.log_frame id row
      apply recorded.stay rfl (fun _ => by rw [Engine.after, books])
      · exact fun id present => by rwa [Engine.after, live]
      · exact fun _ id _ present => by rwa [Engine.after, live] at present
  | access object id action =>
      obtain ⟨live, _⟩ := engine.access_live object id action
      have refused (events : (engine.access object id action).1.isAllowed = false)
          (holders : ∀ other, (engine.access object id action).2.books.table.holders other =
            engine.books.table.holders other) :
          Recorded (engine.access object id action).2
            (past ++ engine.events (.access object id action)) := by
        apply recorded.stay _ holders
        · exact fun id present => by rwa [live]
        · exact fun _ id _ present => by rwa [live] at present
        · simp [Engine.events, events, accesses]
      rw [Engine.after]
      by_cases running : engine.status? id = some .active
      · obtain ⟨handle, txn, found, active⟩ := Engine.find?_of_active running
        obtain ⟨seat, present⟩ := Roster.find?_eq_some.mp found
        obtain ⟨allowed, table, _⟩ := access_active found active object action
        have acquired := acquire_cases engine.books.table object (modeFor action) present
        rw [← allowed, ← table, chronicle.orderly.id_of_find? found] at acquired
        rcases acquired with ⟨stopped, left⟩ | ⟨granted, _, left⟩
        · exact refused stopped fun other => by rw [left, holders_put_same]
        · rw [Engine.events, if_pos granted]
          apply recorded.grant (chronicle.orderly.seated seat).1 (Roster.mem_live_of_find? found) live
          rcases left with same | ⟨short, _, left⟩
          · exact .inl same
          · exact .inr ⟨short, left⟩
      · obtain ⟨stopped, books, _⟩ := access_inactive running object action
        exact refused stopped fun other => by rw [books]
  | finish id commit =>
      cases found : engine.roster.find? id with
      | none =>
          rw [Engine.after, Engine.events, Engine.finish_absent found, List.append_nil]
          exact recorded
      | some entry =>
          apply recorded.leave _ (finish_table found commit)
          · intro other
            rw [(Engine.finish_roster found commit).1]
            exact Roster.mem_live_remove
          · exact Engine.accesses_events fun _ _ _ => by simp
  | evict id =>
      cases found : engine.roster.find? id with
      | none =>
          rw [Engine.after, Engine.events, Engine.evict_absent found, found]
          simpa using recorded
      | some entry =>
          apply recorded.leave
          · exact Engine.accesses_events fun _ _ _ => by simp
          · rw [Engine.after, Engine.evict_found found]
            rfl
          · intro other
            rw [Engine.after, Engine.evict_found found]
            exact Roster.mem_live_remove

theorem holders_ids (recorded : Recorded engine past) (object : ObjectId) :
    (engine.books.table.holders object).map Holder.id =
      (claimants past object).filter (· ∈ engine.roster.live) := by
  rw [recorded object, List.map_map]
  exact List.map_id' _

theorem seated (orderly : engine.Orderly) (recorded : Recorded engine past) {holder : Holder}
    (member : holder ∈ engine.books.table.holders object) :
    engine.roster.live[holder.id]? = some holder.handle := by
  obtain ⟨live, _, same⟩ := recorded.mem_holders.mp member
  obtain ⟨handle, txn, found⟩ := orderly.exists_find? live
  have seat := (Roster.find?_eq_some.mp found).1
  have place := (orderly.seated seat).1
  have handleEq : holder.id - 1 = holder.handle := congrArg Holder.handle same
  rw [seat, ← handleEq, ← place, Nat.add_sub_cancel]

theorem mode_eq_exclusive (recorded : Recorded engine past) {holder : Holder}
    (member : holder ∈ engine.books.table.holders object) :
    holder.mode = .exclusive ↔ .granted ⟨holder.id, object, .write⟩ ∈ past := by
  have mode := congrArg Holder.mode (recorded.mem_holders.mp member).2.2
  rw [← mode]
  by_cases written : .granted ⟨holder.id, object, .write⟩ ∈ past <;> simp [lockOf, written]

theorem holds_of_live {next : Engine Locking} {events : List Event} (recorded : Recorded engine past)
    (later : Recorded next (past ++ events)) {holder : Holder}
    (member : holder ∈ engine.books.table.holders object) (live : holder.id ∈ next.roster.live) :
    Holds (next.books.table.holders object) holder.id holder.mode := by
  obtain ⟨_, claimed, same⟩ := recorded.mem_holders.mp member
  obtain ⟨action, granted⟩ := mem_claimants.mp claimed
  have still : holder.id ∈ claimants (past ++ events) object :=
    mem_claimants.mpr ⟨action, List.mem_append_left _ granted⟩
  refine ⟨lockOf (past ++ events) object holder.id, later.mem_holders.mpr ⟨live, still, rfl⟩, rfl, ?_⟩
  cases mode : holder.mode with
  | shared => cases (lockOf (past ++ events) object holder.id).mode <;> rfl
  | exclusive =>
      have written := (recorded.mode_eq_exclusive member).mp mode
      simp [lockOf, written, LockMode.covers_refl]

end Recorded

theorem initial_recorded (recovery : Option RecoveryLog) : Recorded (initial recovery) [] :=
  fun _ => rfl

theorem recorded_of_reaches (orderly : start.Orderly) (recorded : Recorded start [])
    (reached : start.Reaches past engine) : Recorded engine past := by
  induction reached with
  | start => exact recorded
  | move reached move ih => exact ih.move (reached.chronicle orderly) move

/-- Exactness of the lock table, for every run. A transaction holds a lock on an object if and only
if it is live and was granted an access to it, and the lock is exclusive if and only if it was
granted a write. No transaction holds an object twice, and the holders are ordered by their first
grants. A lock persists, and is never weakened, while its transaction is live. -/
theorem lock_table_exact (recovery : Option RecoveryLog) (calls : List Call) :
    let history := (initial recovery).history calls
    let engine := ((initial recovery).run calls).2
    ∀ object,
      (∀ id, id ∈ (engine.books.table.holders object).map Holder.id ↔
        id ∈ engine.roster.live ∧ ∃ action, .granted ⟨id, object, action⟩ ∈ history) ∧
      (∀ holder ∈ engine.books.table.holders object,
        engine.roster.live[holder.id]? = some holder.handle ∧
          (holder.mode = .exclusive ↔ .granted ⟨holder.id, object, .write⟩ ∈ history)) ∧
      ((engine.books.table.holders object).map Holder.id).Nodup ∧
      ((engine.books.table.holders object).map Holder.id).Pairwise (fun first second =>
        (grantees (·.object = object) history).idxOf first <
          (grantees (·.object = object) history).idxOf second) ∧
      (∀ more, ∀ holder ∈ engine.books.table.holders object,
        holder.id ∈ (engine.run more).2.roster.live →
          Holds ((engine.run more).2.books.table.holders object) holder.id holder.mode) := by
  intro history engine object
  have orderly := initial_orderly recovery
  have recordedAt {past : List Event} {engine : Engine Locking}
      (reached : (initial recovery).Reaches past engine) : Recorded engine past :=
    recorded_of_reaches orderly (initial_recorded recovery) reached
  have reached : (initial recovery).Reaches history engine := Engine.reaches_run _ calls
  have recorded := recordedAt reached
  have ordered : ((engine.books.table.holders object).map Holder.id).Pairwise fun first second =>
      (grantees (·.object = object) history).idxOf first <
        (grantees (·.object = object) history).idxOf second := by
    rw [recorded.holders_ids]
    exact (eraseDups_pairwise _).filter _
  refine ⟨fun id => ?_, fun holder member => ?_, ?_, ordered, fun more holder member live => ?_⟩
  · rw [recorded.holders_ids, List.mem_filter, mem_claimants, decide_eq_true_iff, and_comm]
  · exact ⟨recorded.seated (reached.chronicle orderly).orderly member,
      recorded.mode_eq_exclusive member⟩
  · refine ordered.imp fun before same => ?_
    rw [same] at before
    exact Nat.lt_irrefl _ before
  · exact recorded.holds_of_live (recordedAt (reached.run more)) member live

end Locking

end Isolation
