import Mathlib.Data.List.Induction
import Isolation.Proofs.History

/-!
Replay semantics: the writer observed by each read and the last writer of each object. Accesses that
do not conflict commute, so a serial replay agrees with the original whenever it preserves the order
of conflicting accesses.
-/

namespace Isolation

/-- A read with the transaction whose write it observes. -/
structure Reading where
  reader : TxnId
  object : ObjectId
  writer : Option TxnId
  deriving DecidableEq

section Replay

variable {σ ε : Type}

/-- The readings and the final state of a sequence of events. -/
def replay (step : σ → ε → List Reading × σ) (state : σ) : List ε → List Reading × σ
  | [] => ([], state)
  | event :: rest =>
      let (seen, next) := step state event
      let (readings, final) := replay step next rest
      (seen ++ readings, final)

theorem replay_append (step : σ → ε → List Reading × σ) (state : σ) (first second : List ε) :
    replay step state (first ++ second) =
      ((replay step state first).1 ++ (replay step (replay step state first).2 second).1,
        (replay step (replay step state first).2 second).2) := by
  induction first generalizing state with
  | nil => rfl
  | cons event rest ih =>
      simp only [List.cons_append, replay, ih, List.append_assoc]

theorem replay_singleton (step : σ → ε → List Reading × σ) (state : σ) (event : ε) :
    replay step state [event] = step state event := by
  simp [replay]

end Replay

/-- The last writer of each object. -/
abbrev Writers := ObjectId → Option TxnId

namespace Writers

variable {writers : Writers}

def none : Writers := fun _ => .none

def set (writers : Writers) (object : ObjectId) (id : TxnId) : Writers :=
  fun other => if other = object then some id else writers other

/-- The transition of one access with immediate effect. -/
def access (writers : Writers) (access : Access) : List Reading × Writers :=
  match access.action with
  | .read => ([⟨access.id, access.object, writers access.object⟩], writers)
  | .write => ([], writers.set access.object access.id)

theorem reader_of_mem_access {access : Access} {reading : Reading}
    (member : reading ∈ (writers.access access).1) : reading.reader = access.id := by
  unfold Writers.access at member
  split at member
  · rw [List.mem_singleton.mp member]
  · contradiction

theorem reader_of_mem_replay {accesses : List Access} {reading : Reading}
    (member : reading ∈ (replay Writers.access writers accesses).1) :
    ∃ access ∈ accesses, reading.reader = access.id := by
  induction accesses generalizing writers with
  | nil => contradiction
  | cons access rest ih =>
      rcases List.mem_append.mp member with here | later
      · exact ⟨access, by simp, reader_of_mem_access here⟩
      · obtain ⟨other, otherMember, same⟩ := ih later
        exact ⟨other, List.mem_cons_of_mem _ otherMember, same⟩

/-- Accesses that do not conflict commute. -/
theorem access_swap (writers : Writers) {first second : Access}
    (independent : ¬ first.Conflicts second) :
    ((writers.access first).2.access second).1 = (writers.access second).1 ∧
      ((writers.access second).2.access first).1 = (writers.access first).1 ∧
      ((writers.access first).2.access second).2 = ((writers.access second).2.access first).2 := by
  cases firstAction : first.action with
  | read =>
      cases secondAction : second.action with
      | read => simp [access, firstAction, secondAction]
      | write =>
          have apart : first.object ≠ second.object :=
            fun same => independent ⟨same, .inr secondAction⟩
          simp [access, firstAction, secondAction, set, apart]
  | write =>
      have apart : first.object ≠ second.object :=
        fun same => independent ⟨same, .inl firstAction⟩
      cases secondAction : second.action with
      | read => simp [access, firstAction, secondAction, set, apart.symm]
      | write =>
          simp only [access, firstAction, secondAction, true_and]
          funext object
          simp only [set]
          split
          · rename_i here
            rw [if_neg (fun same => apart (same.symm.trans here))]
          · rfl

/-- An access commutes with a sequence of accesses none of which conflicts with it. -/
theorem replay_postpone (writers : Writers) {access : Access} {accesses : List Access}
    (independent : ∀ other ∈ accesses, ¬ access.Conflicts other) :
    (replay Writers.access (writers.access access).2 accesses).1 =
        (replay Writers.access writers accesses).1 ∧
      ((replay Writers.access writers accesses).2.access access).1 =
        (writers.access access).1 ∧
      (replay Writers.access (writers.access access).2 accesses).2 =
        ((replay Writers.access writers accesses).2.access access).2 := by
  induction accesses generalizing writers with
  | nil => exact ⟨rfl, rfl, rfl⟩
  | cons other rest ih =>
      obtain ⟨otherSees, accessSees, left⟩ := access_swap writers
        (independent other (by simp))
      obtain ⟨restSees, accessLater, restLeft⟩ := ih (writers.access other).2
        (fun next member => independent next (List.mem_cons_of_mem _ member))
      simp only [replay, left, otherSees]
      exact ⟨by rw [restSees], accessLater.trans accessSees, restLeft⟩

end Writers

section Serial

variable {ε : Type}

/-- The events grouped by their owners, in the given order of owners. -/
def serial (owner : ε → TxnId) (order : List TxnId) (events : List ε) : List ε :=
  order.flatMap fun id => events.filter (owner · = id)

variable {owner : ε → TxnId}

theorem mem_serial {order : List TxnId} {events : List ε} {event : ε} :
    event ∈ serial owner order events ↔ event ∈ events ∧ owner event ∈ order := by
  simp only [serial, List.mem_flatMap, List.mem_filter, decide_eq_true_eq]
  constructor
  · intro given
    obtain ⟨id, listed, member, rfl⟩ := given
    exact ⟨member, listed⟩
  · intro given
    obtain ⟨member, listed⟩ := given
    exact ⟨owner event, listed, member, rfl⟩

theorem serial_append_of_not_mem (events : List ε) {order : List TxnId} {last : ε}
    (absent : owner last ∉ order) :
    serial owner order (events ++ [last]) = serial owner order events := by
  induction order with
  | nil => rfl
  | cons id rest ih =>
      obtain ⟨different, later⟩ := not_or.mp (mt List.mem_cons.mpr absent)
      simp only [serial, List.flatMap_cons, List.filter_append] at ih ⊢
      rw [ih later]
      simp [different]

/-- The serial arrangement of one more event inserts it after the events of its owner and before
those of all later owners. -/
theorem serial_append (past : List ε) {rank : TxnId → Nat} {order : List TxnId} {last : ε}
    (sorted : order.Pairwise fun first second => rank first < rank second)
    (listed : owner last ∈ order) :
    ∃ ahead behind, serial owner order past = ahead ++ behind ∧
      serial owner order (past ++ [last]) = ahead ++ ([last] ++ behind) ∧
      ∀ event ∈ behind, event ∈ past ∧ rank (owner last) < rank (owner event) := by
  obtain ⟨before, later, rfl⟩ := List.append_of_mem listed
  obtain ⟨_, laterSorted, beforeRanks⟩ := List.pairwise_append.mp sorted
  have laterRanks (id : TxnId) (member : id ∈ later) : rank (owner last) < rank id :=
    List.rel_of_pairwise_cons laterSorted member
  have notBefore : owner last ∉ before := fun member =>
    Nat.lt_irrefl _ (beforeRanks _ member _ (by simp))
  have notLater : owner last ∉ later := fun member => Nat.lt_irrefl _ (laterRanks _ member)
  refine ⟨serial owner before past ++ past.filter (owner · = owner last),
    serial owner later past, ?_, ?_, ?_⟩
  · simp [serial]
  · have first := serial_append_of_not_mem past notBefore
    have second := serial_append_of_not_mem past notLater
    simp only [serial, List.flatMap_append, List.flatMap_cons] at first second ⊢
    rw [first, second]
    simp
  · intro event member
    obtain ⟨pastMember, idMember⟩ := mem_serial.mp member
    exact ⟨pastMember, laterRanks _ idMember⟩

theorem serial_perm {rank : TxnId → Nat} {order : List TxnId} {events : List ε}
    (sorted : order.Pairwise fun first second => rank first < rank second)
    (listed : ∀ event ∈ events, owner event ∈ order) : (serial owner order events).Perm events := by
  induction events using List.reverseRecOn with
  | nil =>
      have empty : serial owner order [] = [] := by simp [serial]
      rw [empty]
  | append_singleton past last ih =>
      obtain ⟨ahead, behind, whole, wholeNext, _⟩ :=
        serial_append past sorted (listed last (by simp))
      have before := ih fun event member => listed event (by simp [member])
      rw [whole] at before
      rw [wholeNext]
      exact (List.perm_append_comm_assoc ahead [last] behind).trans
        ((before.append_left [last]).trans List.perm_append_comm)

end Serial

/-- Serial equivalence: if conflicting accesses of distinct transactions are ordered by rank, the
serial replay by rank has the same readings of each transaction and the same final writers. -/
theorem replay_serial {rank : TxnId → Nat} {order : List TxnId} {accesses : List Access}
    (sorted : order.Pairwise fun first second => rank first < rank second)
    (listed : ∀ access ∈ accesses, access.id ∈ order)
    (ordered : accesses.Pairwise fun first second =>
      first.id ≠ second.id → first.Conflicts second → rank first.id < rank second.id)
    (writers : Writers) :
    (∀ id, (replay Writers.access writers (serial Access.id order accesses)).1.filter (·.reader = id) =
      (replay Writers.access writers accesses).1.filter (·.reader = id)) ∧
    (replay Writers.access writers (serial Access.id order accesses)).2 =
      (replay Writers.access writers accesses).2 := by
  induction accesses using List.reverseRecOn with
  | nil =>
      have empty : serial Access.id order [] = [] := by simp [serial]
      simp [empty]
  | append_singleton past last ih =>
      obtain ⟨pastOrdered, _, lastOrdered⟩ := List.pairwise_append.mp ordered
      obtain ⟨seen, left⟩ := ih (fun access member => listed access (by simp [member])) pastOrdered
      obtain ⟨ahead, behind, whole, wholeNext, later⟩ :=
        serial_append past sorted (listed last (by simp))
      have independent : ∀ access ∈ behind, ¬ last.Conflicts access := by
        intro access member conflict
        obtain ⟨pastMember, rising⟩ := later access member
        have different : access.id ≠ last.id := fun same => by simp [same] at rising
        have falling := lastOrdered access pastMember last (by simp) different
          ⟨conflict.1.symm, conflict.2.symm⟩
        omega
      obtain ⟨sameSeen, lastSees, sameLeft⟩ := Writers.replay_postpone
        (replay Writers.access writers ahead).2 independent
      rw [whole, replay_append] at seen left
      rw [wholeNext, replay_append, replay_append, replay_append, replay_singleton,
        replay_singleton, ← left, sameSeen, sameLeft, lastSees]
      refine ⟨fun id => ?_, rfl⟩
      have before := seen id
      simp only [List.filter_append] at before ⊢
      rw [← before]
      by_cases own : last.id = id
      · -- What now comes behind the last access belongs to other transactions.
        have silent : (replay Writers.access (replay Writers.access writers ahead).2
            behind).1.filter (·.reader = id) = [] := by
          apply List.filter_eq_nil_iff.mpr
          intro reading member same
          obtain ⟨access, accessMember, reader⟩ := Writers.reader_of_mem_replay member
          have rising := (later access accessMember).2
          rw [← reader, of_decide_eq_true same, own] at rising
          exact Nat.lt_irrefl _ rising
        rw [silent]
        simp
      · have other : (((replay Writers.access writers ahead).2.access last).1).filter
            (·.reader = id) = [] := by
          apply List.filter_eq_nil_iff.mpr
          intro reading member same
          have reader := Writers.reader_of_mem_access member
          exact own (reader.symm.trans (of_decide_eq_true same))
        rw [other]
        simp

end Isolation
