import Isolation.Proofs.Replay

/-!
Timestamp ordering. Every granted access is bounded by the mark of its object and action, so
conflicting accesses are granted in the order of timestamps. The serial replay in timestamp order
therefore yields the same readings and the same final writers.
-/

namespace Isolation

namespace Marks

variable {marks : Marks} {action other : Action} {timestamp : Timestamp}

def of (marks : Marks) : Action → Timestamp
  | .read => marks.read
  | .write => marks.write

theorem of_le_of_raise (marks : Marks) (action other : Action) (timestamp : Timestamp) :
    marks.of other ≤ (marks.raise action timestamp).of other := by
  cases action <;> cases other <;> simp only [of, raise] <;>
    first | exact Nat.le_refl _ | exact Nat.le_max_left _ _

theorem le_of_raise (marks : Marks) (action : Action) (timestamp : Timestamp) :
    timestamp ≤ (marks.raise action timestamp).of action := by
  cases action <;> exact Nat.le_max_right _ _

/-- Without a violation, the marks of all conflicting actions are bounded by the timestamp. -/
theorem of_le_of_violation?_eq_none (inTime : marks.violation? action timestamp = none)
    (conflict : other = .write ∨ action = .write) : marks.of other ≤ timestamp := by
  cases action with
  | read =>
      have wrote : other = .write := conflict.resolve_right (by simp)
      subst wrote
      simp only [violation?] at inTime
      split at inTime
      · contradiction
      · rename_i late
        exact Nat.le_of_not_lt late
  | write =>
      simp only [violation?] at inTime
      split at inTime
      · contradiction
      · rename_i afterRead
        split at inTime
        · contradiction
        · rename_i afterWrite
          cases other with
          | read => exact Nat.le_of_not_lt afterRead
          | write => exact Nat.le_of_not_lt afterWrite

end Marks

namespace Watermarks

variable {engine start : Engine Watermarks} {past : List Event}

theorem of_raise (watermarks : Watermarks) (object other : ObjectId) (action : Action)
    (timestamp : Timestamp) :
    (watermarks.raise object action timestamp).of other =
      if object = other then (watermarks.of object).raise action timestamp
      else watermarks.of other := by
  simp only [of, raise, Std.ExtTreeMap.getElem?_insert, Std.LawfulEqCmp.compare_eq_iff_eq]
  split <;> rfl

theorem of_le_of_raise (watermarks : Watermarks) (object other : ObjectId) (action kind : Action)
    (timestamp : Timestamp) :
    (watermarks.of other).of kind ≤
      ((watermarks.raise object action timestamp).of other).of kind := by
  rw [of_raise]
  split
  · rename_i here
    rw [← here]
    exact Marks.of_le_of_raise _ action kind timestamp
  · exact Nat.le_refl _

theorem judge_eq (scene : Scene Watermarks) (handle : Handle) (txn : Transaction)
    (object : ObjectId) (action : Action) :
    Discipline.judge scene handle txn object action = judge scene handle txn object action := rfl

/-- An access is refused and preserves the books, or has no violation and raises its mark. -/
theorem access_cases (orderly : engine.Orderly) (object : ObjectId) (id : TxnId)
    (action : Action) :
    ((engine.access object id action).1.isAllowed = false ∧
      (engine.access object id action).2.books = engine.books) ∨
    ((engine.books.of object).violation? action id = none ∧
      (engine.access object id action).2.books = engine.books.raise object action id) := by
  cases found : engine.roster.find? id with
  | none =>
      obtain ⟨verdict, books⟩ := Engine.access_absent found object action
      rw [verdict, books]
      exact .inl ⟨rfl, rfl⟩
  | some entry =>
      obtain ⟨handle, txn⟩ := entry
      have stamped : txn.timestamp = some id :=
        congrArg Prod.snd (orderly.identity_of_find? found)
      obtain ⟨verdict, books⟩ := Engine.access_found found object action
      rw [verdict, books, judge_eq]
      unfold judge
      split
      · exact .inl ⟨rfl, rfl⟩
      · simp only [stamped, check]
        cases late : (engine.books.of object).violation? action id with
        | none => exact .inr ⟨rfl, rfl⟩
        | some violation => exact .inl ⟨rfl, rfl⟩

theorem finish_books {id : TxnId} {handle : Handle} {txn : Transaction}
    (found : engine.roster.find? id = some (handle, txn)) (commit : Bool) :
    (engine.finish id commit).2.books = engine.books := by
  rw [Engine.finish_books found, Engine.conclude_books (fun _ => rfl)]
  rfl

/-- Every granted access is bounded by the mark of its object and action. -/
def Marked (engine : Engine Watermarks) (history : List Event) : Prop :=
  ∀ access, .granted access ∈ history →
    access.id ≤ (engine.books.of access.object).of access.action

theorem Marked.move (orderly : engine.Orderly) (marked : Marked engine past) (move : Move) :
    Marked (engine.after move) (past ++ engine.events move) := by
  have unmoved {next : Engine Watermarks} {events : List Event} (books : next.books = engine.books)
      (ungranted : ∀ access, .granted access ∉ events) : Marked next (past ++ events) := by
    intro access member
    rw [books]
    exact marked access ((List.mem_append.mp member).resolve_right (ungranted access))
  cases move with
  | begin => exact unmoved rfl (by simp [Engine.events])
  | log id row => exact unmoved (engine.log_frame id row).1 (by simp [Engine.events])
  | finish id commit =>
      cases found : engine.roster.find? id with
      | none =>
          rw [Engine.after, Engine.events, Engine.finish_absent found]
          exact unmoved rfl (by simp)
      | some entry =>
          apply unmoved (finish_books found commit)
          intro access granted
          cases (Engine.access_of_granted granted).1
  | evict id =>
      have books : (engine.evict id).books = engine.books := by
        unfold Engine.evict
        split <;> rfl
      apply unmoved books
      intro access granted
      cases (Engine.access_of_granted granted).1
  | access object id action =>
      simp only [Engine.after, Engine.events]
      rcases access_cases orderly object id action with ⟨refused, books⟩ | ⟨_, books⟩
      · apply unmoved books
        simp [refused]
      · intro access member
        rw [books]
        rcases List.mem_append.mp member with old | new
        · exact Nat.le_trans (marked access old) (of_le_of_raise _ object _ action _ id)
        · split at new
          · cases List.mem_singleton.mp new
            rw [of_raise, if_pos rfl]
            exact Marks.le_of_raise _ action id
          · contradiction

theorem marked_of_reaches (orderly : start.Orderly) (reached : start.Reaches past engine) :
    Marked engine past := by
  induction reached with
  | start => exact fun access granted => absurd granted (List.not_mem_nil)
  | move reached move ih => exact ih.move (reached.chronicle orderly).orderly move

/-- A granted access has the larger timestamp of any earlier conflicting access. -/
theorem le_of_granted (orderly : start.Orderly) {rest : List Event} {first second : Access}
    (reached : start.Reaches (past ++ .granted second :: rest) engine)
    (earlier : .granted first ∈ past) (conflict : first.Conflicts second) :
    first.id ≤ second.id := by
  obtain ⟨before, move, reachedBefore, granted⟩ := reached.split
  obtain ⟨_, allowed⟩ := Engine.access_of_granted (granted ▸ List.mem_singleton_self _)
  have marked := marked_of_reaches orderly reachedBefore first earlier
  rw [conflict.1] at marked
  rcases access_cases (reachedBefore.chronicle orderly).orderly second.object second.id
    second.action with ⟨refused, _⟩ | ⟨inTime, _⟩
  · rw [refused] at allowed
    contradiction
  · exact Nat.le_trans marked (Marks.of_le_of_violation?_eq_none inTime conflict.2)

theorem accesses_pairwise (orderly : start.Orderly) (reached : start.Reaches past engine) :
    (accesses past).Pairwise fun first second =>
      first.Conflicts second → first.id ≤ second.id := by
  induction reached with
  | start => exact .nil
  | @move past engine reached move ih =>
      simp only [accesses, List.filterMap_append] at ih ⊢
      refine List.pairwise_append.mpr ⟨ih, ?_, ?_⟩
      · rcases engine.events_cases move with none | ⟨event, one, _⟩
        · simp [none]
        · rw [one]
          cases event with
          | granted access => exact List.pairwise_singleton _ _
          | committed id | dropped id => exact .nil
      · intro first earlier second later conflict
        have granted : engine.events move = [.granted second] := by
          have member := mem_accesses.mp later
          rcases engine.events_cases move with none | ⟨event, one, _⟩
          · simp [none] at member
          · rw [one, List.mem_singleton] at member
            rw [one, member]
        have next := reached.move move
        rw [granted] at next
        exact le_of_granted orderly next (mem_accesses.mp earlier) conflict

end Watermarks

namespace Engine

variable {β : Type} [Discipline β] {engine : Engine β}

/-- The timestamp assigned to a transaction when it was created. -/
def stamp? (engine : Engine β) (id : TxnId) : Option Timestamp :=
  (engine.roster.made.toList.find? (·.id = id)).bind Transaction.timestamp

/-- The names of all transactions, sorted by timestamp. -/
def byTimestamp (engine : Engine β) : List TxnId :=
  (engine.roster.made.toList.mergeSort fun first second => first.age ≤ second.age).map
    Transaction.id

theorem Orderly.made_ids (orderly : engine.Orderly) :
    engine.roster.made.toList.map Transaction.id = List.range' 1 engine.last := by
  have ids := congrArg (List.map Prod.fst) orderly.numbered
  simp only [Transactions.identities, List.map_map] at ids
  exact ids.trans (List.map_id' _)

theorem Orderly.stamp?_eq (orderly : engine.Orderly) (stamps : Discipline.stamps β = true)
    {id : TxnId} (positive : 0 < id) (bounded : id ≤ engine.last) :
    engine.stamp? id = some id := by
  have listed : id ∈ engine.roster.made.toList.map Transaction.id := by
    rw [orderly.made_ids, List.mem_range'_1]
    lia
  obtain ⟨txn, member, same⟩ := List.mem_map.mp listed
  cases found : engine.roster.made.toList.find? (·.id = id) with
  | none => exact absurd same (by simpa using List.find?_eq_none.mp found txn member)
  | some first =>
      have firstId : first.id = id := by simpa using List.find?_some found
      have entry : first.identity ∈ Transactions.identities engine.roster.made :=
        List.mem_map_of_mem (List.mem_of_find?_eq_some found)
      rw [orderly.numbered] at entry
      obtain ⟨number, _, born⟩ := List.mem_map.mp entry
      simp only [birth, stamps, if_true] at born
      have numberEq : number = first.id := congrArg Prod.fst born
      have stampEq : some number = first.timestamp := congrArg Prod.snd born
      rw [stamp?, found, Option.bind_some, ← stampEq, numberEq, firstId]

theorem Orderly.byTimestamp_eq (orderly : engine.Orderly) (stamps : Discipline.stamps β = true) :
    engine.byTimestamp = List.range' 1 engine.last := by
  have ages : engine.roster.made.toList.map Transaction.age = List.range' 1 engine.last := by
    have stamped := congrArg (List.map fun identity : TxnId × Option Timestamp =>
      identity.2.getD Transaction.unassignedAge) orderly.numbered
    simp only [Transactions.identities, List.map_map] at stamped
    refine stamped.trans ((List.map_congr_left fun id _ => ?_).trans (List.map_id' _))
    simp [birth, stamps]
  have sorted : engine.roster.made.toList.Pairwise fun first second =>
      decide (first.age ≤ second.age) = true := by
    have rising : (engine.roster.made.toList.map Transaction.age).Pairwise (· ≤ ·) := by
      rw [ages]
      exact List.pairwise_le_range'
    exact (List.pairwise_map.mp rising).imp fun order => decide_eq_true order
  rw [byTimestamp, List.mergeSort_of_pairwise sorted, orderly.made_ids]

end Engine

/-- Serializability of timestamp ordering, for every run. Conflicting accesses of distinct
transactions are granted in the order of their timestamps. The serial replay in this order is a
permutation of the granted accesses with the same readings and the same final writers. -/
theorem timestamp_order_serializable (calls : List Call) :
    let start : Engine Watermarks := Engine.fresh
    let final := (start.run calls).2
    let granted := accesses (start.history calls)
    let ordered := serial Access.id final.byTimestamp granted
    (granted.Pairwise fun first second => first.id ≠ second.id → first.Conflicts second →
      ∃ early late, final.stamp? first.id = some early ∧ final.stamp? second.id = some late ∧
        early < late) ∧
    ordered.Perm granted ∧
    (∀ id, (replay Writers.access Writers.none ordered).1.filter (·.reader = id) =
      (replay Writers.access Writers.none granted).1.filter (·.reader = id)) ∧
    (replay Writers.access Writers.none ordered).2 =
      (replay Writers.access Writers.none granted).2 := by
  intro start final granted ordered
  have reached : start.Reaches (start.history calls) final := Engine.reaches_run start calls
  have chronicle := reached.chronicle Engine.fresh_orderly
  have pairs := Watermarks.accesses_pairwise Engine.fresh_orderly reached
  have order : final.byTimestamp = List.range' 1 final.last :=
    chronicle.orderly.byTimestamp_eq rfl
  have sorted : final.byTimestamp.Pairwise fun first second => id first < id second := by
    rw [order]
    exact List.pairwise_lt_range'
  have bounds (access : Access) (member : access ∈ granted) :
      0 < access.id ∧ access.id ≤ final.last :=
    chronicle.bounded _ (mem_accesses.mp member)
  have listed (access : Access) (member : access ∈ granted) : access.id ∈ final.byTimestamp := by
    have bound := bounds access member
    rw [order, List.mem_range'_1]
    lia
  have strict : granted.Pairwise fun first second =>
      first.id ≠ second.id → first.Conflicts second → first.id < second.id :=
    pairs.imp fun below different conflict => Nat.lt_of_le_of_ne (below conflict) different
  refine ⟨?_, serial_perm sorted listed, replay_serial sorted listed strict Writers.none⟩
  refine strict.imp_of_mem fun {first second} firstMember secondMember below different conflict => ?_
  have firstBounds := bounds first firstMember
  have secondBounds := bounds second secondMember
  exact ⟨first.id, second.id, chronicle.orderly.stamp?_eq rfl firstBounds.1 firstBounds.2,
    chronicle.orderly.stamp?_eq rfl secondBounds.1 secondBounds.2, below different conflict⟩

end Isolation
