import Mathlib.Data.List.Basic
import Isolation.Proofs.Ordering
import Isolation.Proofs.Standing

/-!
Exactness of the watermarks. The mark of an object and an action is the maximum of the timestamps
that were granted the action, so a comparison with the marks is equivalent to a comparison with all
granted conflicting accesses.
-/

namespace Isolation

/-- The maximum of a list of timestamps, and zero for the empty list. -/
def largest (timestamps : List Timestamp) : Timestamp :=
  timestamps.foldl max 0

theorem largest_concat (timestamps : List Timestamp) (last : Timestamp) :
    largest (timestamps ++ [last]) = max (largest timestamps) last := by
  rw [largest, List.foldl_append]
  rfl

theorem largest_le_iff {timestamps : List Timestamp} {bound : Timestamp} :
    largest timestamps ≤ bound ↔ ∀ timestamp ∈ timestamps, timestamp ≤ bound := by
  induction timestamps using List.reverseRecOn with
  | nil => simp [largest]
  | append_singleton rest last ih =>
      rw [largest_concat, Nat.max_le, ih, List.forall_mem_append, List.forall_mem_singleton]

theorem largest_le_append (first second : List Timestamp) :
    largest first ≤ largest (first ++ second) := by
  have bounds := largest_le_iff.mp (Nat.le_refl (largest (first ++ second)))
  exact largest_le_iff.mpr fun timestamp member => bounds timestamp (List.mem_append_left _ member)

def Access.isKind (object : ObjectId) (action : Action) (access : Access) : Bool :=
  access.object = object && access.action = action

theorem mem_grantees_isKind {history : List Event} {object : ObjectId} {action : Action}
    {id : TxnId} : id ∈ grantees (Access.isKind object action) history ↔
      .granted ⟨id, object, action⟩ ∈ history := by
  rw [mem_grantees]
  constructor
  · intro given
    obtain ⟨access, granted, kind, rfl⟩ := given
    simp only [Access.isKind, Bool.and_eq_true, decide_eq_true_eq] at kind
    obtain ⟨rfl, rfl⟩ := kind
    exact granted
  · exact fun granted => ⟨_, granted, by simp [Access.isKind], rfl⟩

namespace Marks

variable {marks : Marks} {action other : Action} {timestamp : Timestamp}

theorem of_raise (marks : Marks) (action other : Action) (timestamp : Timestamp) :
    (marks.raise action timestamp).of other =
      if action = other then max (marks.of other) timestamp else marks.of other := by
  cases action <;> cases other <;> rfl

theorem violation?_eq_none_iff : marks.violation? action timestamp = none ↔
    ∀ other, other = .write ∨ action = .write → marks.of other ≤ timestamp := by
  constructor
  · exact fun inTime other conflict => of_le_of_violation?_eq_none inTime conflict
  · intro below
    have written : ¬ timestamp < marks.write := Nat.not_lt_of_le (below .write (.inl rfl))
    cases action with
    | read => simp [violation?, written]
    | write =>
        have read : ¬ timestamp < marks.read := Nat.not_lt_of_le (below .read (.inr rfl))
        simp [violation?, written, read]

end Marks

namespace Watermarks

variable {engine start : Engine Watermarks} {past : List Event} {id : TxnId} {object : ObjectId}
  {action : Action}

/-- Each mark is the maximum of the granted timestamps of its object and action. -/
def Exact (engine : Engine Watermarks) (history : List Event) : Prop :=
  ∀ object action, (engine.books.of object).of action =
    largest (grantees (Access.isKind object action) history)

theorem Exact.keep {next : Engine Watermarks} {events : List Event} (exact : Exact engine past)
    (books : next.books = engine.books) (ungranted : accesses events = []) :
    Exact next (past ++ events) := by
  intro object action
  have none : grantees (Access.isKind object action) events = [] := by
    rw [grantees, ungranted]
    rfl
  rw [books, exact object action, grantees_append, none, List.append_nil]

theorem access_books (orderly : engine.Orderly) (object : ObjectId) (id : TxnId)
    (action : Action) :
    (engine.access object id action).2.books =
      if (engine.access object id action).1.isAllowed then engine.books.raise object action id
      else engine.books := by
  cases found : engine.roster.find? id with
  | none =>
      obtain ⟨verdict, books⟩ := Engine.access_absent found object action
      rw [verdict, books]
      rfl
  | some entry =>
      obtain ⟨handle, txn⟩ := entry
      have stamped : txn.timestamp = some id :=
        congrArg Prod.snd (orderly.identity_of_find? found)
      obtain ⟨verdict, books⟩ := Engine.access_found found object action
      rw [verdict, books, judge_eq]
      unfold judge
      split
      · rfl
      · simp only [stamped, check]
        cases (engine.books.of object).violation? action id <;> rfl

theorem access_isAllowed_iff (orderly : engine.Orderly) {txn : Transaction}
    (found : engine.roster.get? id = some txn) (running : txn.isAborted = false) :
    (engine.access object id action).1.isAllowed = true ↔
      (engine.books.of object).violation? action id = none := by
  obtain ⟨handle, seated⟩ := Roster.exists_find?_of_get? found
  have stamped : txn.timestamp = some id := congrArg Prod.snd (orderly.identity_of_find? seated)
  rw [(Engine.access_found seated object action).1, judge_eq]
  simp only [judge, running, Bool.false_eq_true, if_false, stamped, check]
  cases (engine.books.of object).violation? action id <;> simp [Verdict.isAllowed]

theorem Exact.move (orderly : engine.Orderly) (exact : Exact engine past) (move : Move) :
    Exact (engine.after move) (past ++ engine.events move) := by
  cases move with
  | begin => exact exact.keep rfl rfl
  | log id row => exact exact.keep (engine.log_frame id row).1 rfl
  | finish id commit =>
      apply exact.keep
      · cases found : engine.roster.find? id with
        | none => rw [Engine.after, Engine.finish_absent found]
        | some entry => exact finish_books found commit
      · exact Engine.accesses_events fun _ _ _ => by simp
  | evict id =>
      apply exact.keep
      · unfold Engine.after Engine.evict
        dsimp only
        split <;> rfl
      · exact Engine.accesses_events fun _ _ _ => by simp
  | access target id kind =>
      rw [Engine.after, Engine.events]
      cases allowed : (engine.access target id kind).1.isAllowed with
      | false =>
          have books := access_books orderly target id kind
          rw [allowed] at books
          exact exact.keep books rfl
      | true =>
          have books := access_books orderly target id kind
          rw [allowed] at books
          intro object action
          -- The move raises one mark and extends the grantees of the same object and action.
          rw [books, if_pos rfl, if_pos rfl, grantees_append, of_raise]
          by_cases here : target = object ∧ kind = action
          · obtain ⟨rfl, rfl⟩ := here
            rw [if_pos rfl, Marks.of_raise, if_pos rfl, exact target kind, ← largest_concat]
            simp [grantees, accesses, Event.access?, Access.isKind]
          · have none : grantees (Access.isKind object action) [.granted ⟨id, target, kind⟩] = [] := by
              simpa [grantees, accesses, Event.access?, Access.isKind] using here
            rw [none, List.append_nil, ← exact object action]
            split
            · rename_i same
              subst same
              rw [Marks.of_raise, if_neg fun same => here ⟨rfl, same⟩]
            · rfl

theorem exact_of_reaches (orderly : start.Orderly) (exact : Exact start [])
    (reached : start.Reaches past engine) : Exact engine past := by
  induction reached with
  | start => exact exact
  | move reached move ih => exact ih.move (reached.chronicle orderly).orderly move

/-- `violation?` is `none` if and only if no granted conflicting access has a larger timestamp. -/
theorem Exact.violation?_eq_none_iff (exact : Exact engine past) :
    (engine.books.of object).violation? action id = none ↔
      ∀ access, .granted access ∈ past → access.Conflicts ⟨id, object, action⟩ → access.id ≤ id := by
  rw [Marks.violation?_eq_none_iff]
  simp only [exact object, largest_le_iff, mem_grantees_isKind]
  constructor
  · intro below access granted conflict
    obtain ⟨same, writes⟩ := conflict
    cases same
    exact below access.action writes access.id granted
  · intro below other writes number granted
    exact below _ granted ⟨rfl, writes⟩

theorem aborted_of_refused (orderly : engine.Orderly) (undecided : engine.Undecided)
    (live : id ∈ engine.roster.live)
    (refused : (engine.access object id action).1.isAllowed = false) :
    (engine.access object id action).2.status? id = some .aborted := by
  obtain ⟨handle, txn, found⟩ := orderly.exists_find? live
  obtain ⟨seat, present⟩ := Roster.find?_eq_some.mp found
  have stamped : txn.timestamp = some id := congrArg Prod.snd (orderly.identity_of_find? found)
  have standing := Engine.status?_of_find? found
  rw [(Engine.access_found found object action).1, judge_eq] at refused
  simp only [Engine.status?, Engine.access, found, Roster.get?_eq_bind, seat, Option.bind_some,
    judge_eq]
  unfold judge at refused ⊢
  split
  · rename_i aborted
    rcases undecided id txn.status standing with active | rolledBack
    · rw [Transaction.isAborted, active] at aborted
      contradiction
    · rw [present, Option.map_some, rolledBack]
  · rename_i running
    rw [if_neg running] at refused
    simp only [stamped, check] at refused ⊢
    cases late : (engine.books.of object).violation? action id with
    | none =>
        rw [late] at refused
        contradiction
    | some violation =>
        rw [Array.getElem?_modify, if_pos rfl, present]
        rcases undecided id txn.status standing with status | status <;>
          simp [Transaction.forceAbort_eq, status, Status.rolledBack]

theorem access_of_aborted (aborted : engine.status? id = some .aborted) (object : ObjectId)
    (action : Action) : (engine.access object id action).1 = .refused .aborted := by
  obtain ⟨handle, txn, found, status⟩ := Engine.exists_find?_of_status? aborted
  have rolledBack : txn.isAborted = true := by rw [Transaction.isAborted, status]; rfl
  rw [(Engine.access_found found object action).1, judge_eq, judge, if_pos rolledBack]

theorem fresh_exact : Exact Engine.fresh [] := by
  intro object action
  cases action <;> rfl

end Watermarks

namespace Engine

variable {β : Type} [Discipline β] {engine start : Engine β} {past : List Event}

def stamps (engine : Engine β) (history : List Event) (object : ObjectId) (action : Action) :
    List Timestamp :=
  (grantees (Access.isKind object action) history).filterMap engine.stamp?

theorem Chronicle.stamp?_eq (chronicle : engine.Chronicle past)
    (stamping : Discipline.stamps β = true) {access : Access} (granted : .granted access ∈ past) :
    engine.stamp? access.id = some access.id := by
  obtain ⟨positive, bounded⟩ := chronicle.bounded _ granted
  exact chronicle.orderly.stamp?_eq stamping positive bounded

theorem Chronicle.stamps_eq (chronicle : engine.Chronicle past)
    (stamping : Discipline.stamps β = true) (object : ObjectId) (action : Action) :
    engine.stamps past object action = grantees (Access.isKind object action) past := by
  have own : ∀ id ∈ grantees (Access.isKind object action) past,
      engine.stamp? id = some id :=
    fun id member => chronicle.stamp?_eq stamping (mem_grantees_isKind.mp member)
  rw [stamps, List.filterMap_congr own, List.filterMap_some]

end Engine

/-- Timestamp ordering, for every run. An access of a transaction that is not aborted is allowed if
and only if no conflicting access was granted to a larger timestamp. The marks are the maxima of the
granted timestamps; no call decreases them and a refused access preserves them. A refused
transaction is aborted, and every later request of it is refused until its end. -/
theorem timestamp_order_exact (calls : List Call) :
    let start : Engine Watermarks := Engine.fresh
    let history := start.history calls
    let engine := (start.run calls).2
    (∀ access ∈ accesses history, ∃ stamp, engine.stamp? access.id = some stamp) ∧
    (∀ object action, (engine.books.of object).of action =
      largest (engine.stamps history object action)) ∧
    (∀ id txn object action, engine.roster.get? id = some txn → txn.isAborted = false →
      ∃ stamp, txn.timestamp = some stamp ∧
        ((engine.access object id action).1.isAllowed = true ↔
          ∀ access ∈ accesses history, access.Conflicts ⟨id, object, action⟩ →
            ∃ other, engine.stamp? access.id = some other ∧ other ≤ stamp)) ∧
    (∀ call object action, (engine.books.of object).of action ≤
      ((engine.step call).2.books.of object).of action) ∧
    (∀ object id action, (engine.access object id action).1.isAllowed = false →
      (engine.access object id action).2.books = engine.books) ∧
    (∀ call id refusal, call.asker? = some id → id ∈ engine.roster.live →
      (engine.step call).1 = .judged (.refused refusal) →
        ∀ more, (∀ event ∈ (engine.step call).2.history more, event.ends id = false) →
          (((engine.step call).2.run more).2.status? id = some .aborted ∧
            ∀ object action, (((engine.step call).2.run more).2.access object id action).1 =
              .refused .aborted)) := by
  intro start history engine
  have reached : start.Reaches history engine := Engine.reaches_run start calls
  have chronicle := reached.chronicle Engine.fresh_orderly
  have exactAt {past : List Event} {engine : Engine Watermarks} (reached : start.Reaches past engine) :
      Watermarks.Exact engine past :=
    Watermarks.exact_of_reaches Engine.fresh_orderly Watermarks.fresh_exact reached
  have exact := exactAt reached
  refine ⟨?_, ?_, ?_, ?_, ?_, ?_⟩
  · intro access member
    exact ⟨_, chronicle.stamp?_eq rfl (mem_accesses.mp member)⟩
  · intro object action
    rw [chronicle.stamps_eq rfl]
    exact exact object action
  · intro id txn object action found running
    obtain ⟨handle, seated⟩ := Roster.exists_find?_of_get? found
    refine ⟨id, congrArg Prod.snd (chronicle.orderly.identity_of_find? seated), ?_⟩
    rw [Watermarks.access_isAllowed_iff chronicle.orderly found running,
      exact.violation?_eq_none_iff]
    constructor
    · intro below access member conflict
      have granted := mem_accesses.mp member
      exact ⟨access.id, chronicle.stamp?_eq rfl granted, below access granted conflict⟩
    · intro below access granted conflict
      obtain ⟨other, stamped, bound⟩ := below access (mem_accesses.mpr granted) conflict
      rw [chronicle.stamp?_eq rfl granted, Option.some.injEq] at stamped
      rwa [stamped]
  · intro call object action
    have next := exactAt (reached.moves (engine.moves call))
    rw [← Engine.step_eq_moves] at next
    rw [exact object action, next object action, grantees_append]
    exact largest_le_append _ _
  · intro object id action refused
    rw [Watermarks.access_books chronicle.orderly, refused]
    rfl
  · intro call id refusal asks live refused more running
    obtain ⟨before, object, action, whole, kept, verdict⟩ := Engine.moves_of_refused asks refused
    have middle := reached.moves before
    have ends : (engine.step call).2 =
        ((before.foldl Engine.after engine).access object id action).2 := by
      rw [Engine.step_eq_moves, whole, List.foldl_append]
      rfl
    have aborted : (engine.step call).2.status? id = some .aborted := by
      rw [ends]
      apply Watermarks.aborted_of_refused (middle.chronicle Engine.fresh_orderly).orderly
        (middle.undecided Engine.fresh_orderly Engine.fresh_undecided) (kept ▸ live)
      rw [verdict]
      rfl
    have after := (reached.moves (engine.moves call)).chronicle Engine.fresh_orderly
    rw [← Engine.step_eq_moves] at after
    rw [Engine.history_eq_trace] at running
    have still := after.aborted_moves _ aborted running
    rw [← Engine.run_eq_trace] at still
    exact ⟨still, fun object action => Watermarks.access_of_aborted still object action⟩

end Isolation
