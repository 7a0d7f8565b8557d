import Isolation.Proofs.Ledger
import Isolation.Proofs.Replay

/-!
Replay semantics with deferred writes: a read observes the installed version, and the writes of a
transaction are installed when it commits. If every committed transaction was unopposed at its
commit, the serial replay in commit order yields the same reads and the same installed versions.
-/

namespace Isolation

/-- The installed version of each object, and the writes that are not yet installed. -/
structure Versions where
  installed : Writers := Writers.none
  drafts : List (TxnId × ObjectId) := []

def Reading.place (reading : Reading) : TxnId × ObjectId :=
  (reading.reader, reading.object)

/-- Readings are determined by their places and by the writers that they observe. -/
theorem Reading.eq_of_places {first second : List Reading} {writers : Writers}
    (same : first.map place = second.map place)
    (firstSees : ∀ reading ∈ first, reading.writer = writers reading.object)
    (secondSees : ∀ reading ∈ second, reading.writer = writers reading.object) :
    first = second := by
  have seen {readings : List Reading}
      (sees : ∀ reading ∈ readings, reading.writer = writers reading.object) :
      (readings.map place).map (fun place => ⟨place.1, place.2, writers place.2⟩) = readings := by
    rw [List.map_map]
    refine (List.map_congr_left fun reading member => ?_).trans (List.map_id readings)
    rw [Function.comp, place, ← sees reading member]
    rfl
  rw [← seen firstSees, same, seen secondSees]

namespace Event

def read? : Event → Option (TxnId × ObjectId)
  | granted ⟨id, object, .read⟩ => some (id, object)
  | granted ⟨_, _, .write⟩ | committed _ | dropped _ => none

theorem id_of_read? {event : Event} {place : TxnId × ObjectId} (read : event.read? = some place) :
    event = .granted ⟨place.1, place.2, .read⟩ := by
  unfold read? at read
  split at read
  · cases read
    rfl
  · contradiction
  · contradiction
  · contradiction

end Event

namespace Versions

variable {versions : Versions} {history : List Event}

/-- The transition of one event. The drafts of a dropped transaction are kept, because only its own
commit could install them. -/
def step (versions : Versions) : Event → List Reading × Versions
  | .granted ⟨id, object, .read⟩ => ([⟨id, object, versions.installed object⟩], versions)
  | .granted ⟨id, object, .write⟩ =>
      ([], { versions with drafts := (id, object) :: versions.drafts })
  | .committed id =>
      ([], { versions with installed := fun object =>
        if (id, object) ∈ versions.drafts then some id else versions.installed object })
  | .dropped _ => ([], versions)

/-- The places of the readings of a step depend on the event only. -/
theorem step_places (versions : Versions) (event : Event) :
    (versions.step event).1.map Reading.place = event.read?.toList := by
  rcases event with ⟨id, object, _ | _⟩ | id | id <;> rfl

theorem replay_places (versions : Versions) (history : List Event) :
    (replay step versions history).1.map Reading.place = history.filterMap Event.read? := by
  induction history generalizing versions with
  | nil => rfl
  | cons event rest ih =>
      rw [replay, List.map_append, ih, step_places, List.filterMap_cons]
      cases event.read? <;> rfl

theorem replay_places_of (versions : Versions) (id : TxnId) (history : List Event) :
    ((replay step versions history).1.filter (·.reader = id)).map Reading.place =
      (history.filter (·.id = id)).filterMap Event.read? := by
  have own : ((replay step versions history).1.map Reading.place).filter (·.1 = id) =
      ((replay step versions history).1.filter (·.reader = id)).map Reading.place :=
    List.filter_map
  rw [← own, replay_places, List.filter_filterMap, List.filterMap_filter]
  congr 1
  funext event
  rcases event with ⟨other, object, _ | _⟩ | other | other <;> by_cases own : other = id <;>
    simp [Event.read?, Event.id, Option.filter, own]

theorem granted_of_reading {reading : Reading} (member : reading ∈ (replay step versions history).1) :
    .granted ⟨reading.reader, reading.object, .read⟩ ∈ history := by
  have place : reading.place ∈ (replay step versions history).1.map Reading.place :=
    List.mem_map_of_mem member
  rw [replay_places, List.mem_filterMap] at place
  obtain ⟨event, eventMember, read⟩ := place
  rwa [Event.id_of_read? read] at eventMember

theorem mem_drafts {id : TxnId} {object : ObjectId} :
    (id, object) ∈ (replay step versions history).2.drafts ↔
      (id, object) ∈ versions.drafts ∨ .granted ⟨id, object, .write⟩ ∈ history := by
  induction history generalizing versions with
  | nil => simp [replay]
  | cons event rest ih =>
      rw [replay, ih]
      rcases event with ⟨other, asked, _ | _⟩ | other | other <;>
        simp [step, or_assoc, or_left_comm]

/-- A replay without commits preserves the installed versions, and every reading observes them. -/
theorem replay_installed (versions : Versions)
    (uncommitted : ∀ event ∈ history, event.committed? = none) :
    (replay step versions history).2.installed = versions.installed ∧
      ∀ reading ∈ (replay step versions history).1,
        reading.writer = versions.installed reading.object := by
  induction history generalizing versions with
  | nil => simp [replay]
  | cons event rest ih =>
      have same : (versions.step event).2.installed = versions.installed ∧
          ∀ reading ∈ (versions.step event).1,
            reading.writer = versions.installed reading.object := by
        have here := uncommitted event (by simp)
        rcases event with ⟨other, asked, _ | _⟩ | other | other
        · simp [step]
        · simp [step]
        · contradiction
        · simp [step]
      obtain ⟨later, laterSees⟩ := ih (versions.step event).2
        fun next member => uncommitted next (List.mem_cons_of_mem _ member)
      rw [same.1] at later laterSees
      refine ⟨later, fun reading member => ?_⟩
      rcases List.mem_append.mp member with first | second
      · exact same.2 reading first
      · exact laterSees reading second

/-- A version read by a transaction that has not ended is still installed, or a rival has written
the object. The premise that it has not ended is needed because `since` is empty afterwards. -/
theorem current_or_overtaken {id : TxnId} (settled : Settled history)
    (running : ∀ event ∈ history, event.ends id = false) {reading : Reading}
    (member : reading ∈ (replay step {} history).1) (own : reading.reader = id) :
    reading.writer = (replay step {} history).2.installed reading.object ∨
      ∃ rival ∈ rivals id history, reading.object ∈ touched .write rival history := by
  induction history using List.reverseRecOn with
  | nil => contradiction
  | append_singleton past last ih =>
      obtain ⟨pastSettled, _, closed⟩ := List.pairwise_append.mp settled
      have silent {other : TxnId} (committed : .committed other ∈ past) : last.id ≠ other :=
        closed _ committed last (by simp) other (by simp [Event.ends])
      have undropped : last ≠ .dropped id := by
        intro same
        subst same
        simpa [Event.ends] using running (.dropped id) (by simp)
      have before := ih pastSettled fun event eventMember => running event (by simp [eventMember])
      have still : (∃ rival ∈ rivals id past, reading.object ∈ touched .write rival past) →
          ∃ rival ∈ rivals id (past ++ [last]),
            reading.object ∈ touched .write rival (past ++ [last]) := by
        intro given
        obtain ⟨rival, since, wrote⟩ := given
        have heard := mem_rivals.mp since
        have kept : last ≠ .dropped rival := by
          intro same
          subst same
          exact silent (mem_of_mem_since heard) rfl
        exact ⟨rival, mem_rivals.mpr (mem_since_append heard undropped),
          mem_touched.mpr (mem_since_append (mem_touched.mp wrote) kept)⟩
      rw [replay_append, replay_singleton] at member ⊢
      rcases last with ⟨other, object, _ | _⟩ | other | other
      · rcases List.mem_append.mp member with old | new
        · exact (before old).imp_right still
        · cases List.mem_singleton.mp new
          exact .inl rfl
      · rw [step, List.append_nil] at member
        exact (before member).imp_right still
      · rw [step, List.append_nil] at member
        by_cases drafted : (other, reading.object) ∈ (replay step {} past).2.drafts
        · -- The transaction that commits overtakes all that is running.
          right
          have wrote : .granted ⟨other, reading.object, .write⟩ ∈ past :=
            (mem_drafts.mp drafted).resolve_left List.not_mem_nil
          have kept : .dropped other ∉ past := fun dropped =>
            closed _ dropped (.committed other) (by simp) other (by simp [Event.ends]) rfl
          have unended : .dropped id ∉ past := fun dropped => by
            simpa [Event.ends] using running (.dropped id) (by simp [dropped])
          have begun : since id past ≠ [] :=
            List.ne_nil_of_mem (mem_since (granted_of_reading member) own unended)
          refine ⟨other, mem_rivals.mpr ?_,
            mem_touched.mpr (mem_since_append (mem_since wrote rfl kept) (by simp))⟩
          rw [since_concat_begun begun undropped]
          simp
        · rw [step]
          simp only [drafted, if_false]
          exact (before member).imp_right still
      · rw [step, List.append_nil] at member
        exact (before member).imp_right still

/-- An unopposed transaction has read the versions that are installed at its commit. -/
theorem current_of_unopposed {id : TxnId} (settled : Settled history)
    (running : ∀ event ∈ history, event.ends id = false) (unopposed : Unopposed id history)
    {reading : Reading} (member : reading ∈ (replay step {} history).1)
    (own : reading.reader = id) :
    reading.writer = (replay step {} history).2.installed reading.object := by
  rcases current_or_overtaken settled running member own with current | ⟨rival, committed, wrote⟩
  · exact current
  · have undropped : .dropped id ∉ history := fun dropped => by
      simpa [Event.ends] using running (.dropped id) dropped
    have read : .granted ⟨id, reading.object, .read⟩ ∈ since id history :=
      mem_since (own ▸ granted_of_reading member) rfl undropped
    exact absurd (mem_touched.mpr read) (unopposed rival committed reading.object wrote)

theorem filter_reader_eq_nil (versions : Versions) {id : TxnId}
    (absent : ∀ event ∈ history, event.id ≠ id) :
    (replay step versions history).1.filter (·.reader = id) = [] := by
  apply List.filter_eq_nil_iff.mpr
  intro reading member own
  exact absent _ (granted_of_reading member) (of_decide_eq_true own)

/-- The events of the committed transactions, grouped by transaction in commit order. -/
def serialized (history : List Event) : List Event :=
  serial Event.id (history.filterMap Event.committed?) history

theorem not_mem_committed {last : Event} (settled : Settled (history ++ [last])) :
    last.id ∉ history.filterMap Event.committed? := by
  intro committed
  exact (List.pairwise_append.mp settled).2.2 _ (mem_filterMap_committed?.mp committed) last
    (List.mem_singleton_self _) last.id (by simp [Event.ends]) rfl

theorem ne_of_mem_serialized {event last : Event} (settled : Settled (history ++ [last]))
    (member : event ∈ serialized history) : event.id ≠ last.id := by
  intro same
  exact not_mem_committed settled (same ▸ (mem_serial.mp member).2)

theorem serialized_append_of_uncommitted {last : Event} (settled : Settled (history ++ [last]))
    (uncommitted : last.committed? = none) :
    serialized (history ++ [last]) = serialized history := by
  have same : (history ++ [last]).filterMap Event.committed? =
      history.filterMap Event.committed? := by simp [uncommitted]
  rw [serialized, same, serial_append_of_not_mem history (not_mem_committed settled), serialized]

theorem serialized_append_committed {id : TxnId}
    (settled : Settled (history ++ [.committed id])) :
    serialized (history ++ [.committed id]) =
      serialized history ++ (history.filter (·.id = id) ++ [.committed id]) := by
  have grown : (history ++ [Event.committed id]).filterMap Event.committed? =
      history.filterMap Event.committed? ++ [id] := by simp [Event.committed?]
  have before := serial_append_of_not_mem history (not_mem_committed settled)
  rw [serialized, serialized, grown, ← before]
  simp [serial, Event.id]

/-- Appending the next unopposed commit to the serial history preserves its readings and
installations. -/
theorem serializable_commit {id : TxnId} (settled : Settled (history ++ [.committed id]))
    (unopposed : Unopposed id history)
    (left : (replay step {} (serialized history)).2.installed =
      (replay step {} history).2.installed) :
    (replay step (replay step {} (serialized history)).2 (history.filter (·.id = id))).1 =
        (replay step {} history).1.filter (·.reader = id) ∧
      (replay step {} (serialized (history ++ [.committed id]))).2.installed =
        (replay step {} (history ++ [.committed id])).2.installed := by
  obtain ⟨pastSettled, _, closed⟩ := List.pairwise_append.mp settled
  have running (event : Event) (member : event ∈ history) : event.ends id = false :=
    Bool.eq_false_iff.mpr fun ended => closed event member (.committed id) (by simp) id ended rfl
  have quiet : ∀ event ∈ history.filter (·.id = id), event.committed? = none := by
    intro event member
    obtain ⟨old, own⟩ := List.mem_filter.mp member
    cases event with
    | granted access | dropped other => rfl
    | committed other =>
        have unended : decide (other = id) = false := running _ old
        exact absurd own (Bool.eq_false_iff.mp unended)
  have absent (event : Event) (member : event ∈ serialized history) : event.id ≠ id :=
    ne_of_mem_serialized settled member
  obtain ⟨same, sees⟩ := replay_installed (replay step {} (serialized history)).2 quiet
  constructor
  · apply Reading.eq_of_places
    case same => rw [replay_places, replay_places_of]
    case firstSees => exact sees
    case secondSees =>
        intro reading member
        obtain ⟨old, own⟩ := List.mem_filter.mp member
        rw [left]
        exact current_of_unopposed pastSettled running unopposed old (of_decide_eq_true own)
  · rw [serialized_append_committed settled, replay_append, replay_append, replay_append,
      replay_singleton, replay_singleton]
    funext object
    have drafted : (id, object) ∈ (replay step (replay step {} (serialized history)).2
          (history.filter (·.id = id))).2.drafts ↔
        (id, object) ∈ (replay step {} history).2.drafts := by
      rw [mem_drafts, mem_drafts, mem_drafts, List.mem_filter]
      constructor
      · intro drafted
        rcases drafted with (none | other) | ⟨own, _⟩
        · contradiction
        · exact absurd rfl (absent _ other)
        · exact .inr own
      · intro drafted
        rcases drafted with none | own
        · contradiction
        · exact .inr ⟨own, by simp [Event.id]⟩
    simp only [step, drafted, same, left]

/-- Serializability of deferred writes: if every transaction is unopposed at its commit, the serial
history yields the same readings of each committed transaction and the same installed versions. -/
theorem serializable (settled : Settled history)
    (validated : ∀ past id rest, history = past ++ .committed id :: rest → Unopposed id past) :
    (∀ id, .committed id ∈ history →
      (replay step {} (serialized history)).1.filter (·.reader = id) =
        (replay step {} history).1.filter (·.reader = id)) ∧
    (replay step {} (serialized history)).2.installed = (replay step {} history).2.installed := by
  induction history using List.reverseRecOn with
  | nil => simp [serialized, serial]
  | append_singleton past last ih =>
      obtain ⟨pastSettled, _, closed⟩ := List.pairwise_append.mp settled
      obtain ⟨seen, left⟩ := ih pastSettled fun before id rest same =>
        validated before id (rest ++ [last]) (by simp [same])
      cases commits : last.committed? with
      | none =>
          have quiet : ∀ event ∈ [last], event.committed? = none := by simpa using commits
          rw [serialized_append_of_uncommitted settled commits, replay_append]
          refine ⟨fun id member => ?_, left.trans (replay_installed _ quiet).1.symm⟩
          rcases List.mem_append.mp member with old | new
          · have different : last.id ≠ id := closed _ old last (by simp) id (by simp [Event.ends])
            have silent : (replay step (replay step {} past).2 [last]).1.filter
                (·.reader = id) = [] := filter_reader_eq_nil _ (by simpa using different)
            rw [List.filter_append, silent, List.append_nil]
            exact seen id old
          · rw [← List.mem_singleton.mp new] at commits
            contradiction
      | some id =>
          obtain rfl := Event.eq_of_committed? commits
          obtain ⟨own, installed⟩ := serializable_commit settled (validated past id [] rfl) left
          refine ⟨fun other member => ?_, installed⟩
          rw [serialized_append_committed settled, replay_append, replay_append, replay_append,
            replay_singleton, replay_singleton, own]
          simp only [step, List.append_nil, List.filter_append, List.filter_filter]
          by_cases same : other = id
          · have absent : ∀ event ∈ serialized past, event.id ≠ other := by
              rw [same]
              exact fun event member => ne_of_mem_serialized settled member
            rw [filter_reader_eq_nil _ absent, List.nil_append, same]
            simp only [Bool.and_self]
          · have old : .committed other ∈ past := by simpa [same] using member
            have foreign : (replay step {} past).1.filter
                (fun reading => decide (reading.reader = other) && decide (reading.reader = id)) =
                [] := by
              apply List.filter_eq_nil_iff.mpr
              simp only [Bool.and_eq_true, decide_eq_true_eq, not_and]
              exact fun reading _ reader own => same (reader.symm.trans own)
            rw [foreign, List.append_nil]
            exact seen other old

end Versions

end Isolation
