import Mathlib.Data.List.DropRight
import Mathlib.Data.List.Induction
import Isolation.Ledger
import Isolation.Proofs.History

/-!
The correspondence between the ledger and the history. A record contains the objects accessed since
its creation, and the timestamps of the records determine which transactions committed since then.
The clock assigns distinct times to first touches, validations and finishes.
-/

namespace Isolation

/-- The history since the creation of the current record of a transaction, starting with the access
that created it. Empty if there is no record: before the first access and after a drop. -/
def since (id : TxnId) (history : List Event) : List Event :=
  (history.rtakeWhile (· ≠ .dropped id)).dropWhile (·.id ≠ id)

theorem since_concat (id : TxnId) (history : List Event) (event : Event) :
    since id (history ++ [event]) =
      if event = .dropped id then []
      else if since id history = [] ∧ event.id ≠ id then []
      else since id history ++ [event] := by
  have unfolded : since id (history ++ [event]) =
      ((history ++ [event]).rtakeWhile (· ≠ .dropped id)).dropWhile (·.id ≠ id) := rfl
  rw [unfolded, List.rtakeWhile_concat]
  by_cases dropped : event = .dropped id
  · rw [if_neg (by simp [dropped]), if_pos dropped]
    rfl
  · rw [if_pos (by simp [dropped]), if_neg dropped, List.dropWhile_append]
    change (if (since id history).isEmpty then _ else since id history ++ [event]) = _
    by_cases empty : since id history = []
    · by_cases own : event.id = id <;> simp [empty, own]
    · simp [empty]

/-- The objects on which a transaction has been granted the action since the creation of its record. -/
def touched (action : Action) (id : TxnId) (history : List Event) : List ObjectId :=
  (accesses (since id history)).filterMap fun access =>
    if access.id = id ∧ access.action = action then some access.object else none

theorem mem_touched {action : Action} {id : TxnId} {history : List Event} {object : ObjectId} :
    object ∈ touched action id history ↔ .granted ⟨id, object, action⟩ ∈ since id history := by
  simp only [touched, List.mem_filterMap, ← mem_accesses]
  constructor
  · intro given
    obtain ⟨access, member, found⟩ := given
    split at found
    · rename_i own
      cases found
      cases own.1
      cases own.2
      exact member
    · contradiction
  · intro member
    exact ⟨_, member, by simp⟩

/-- The transactions that committed since the creation of a record. -/
def rivals (id : TxnId) (history : List Event) : List TxnId :=
  (since id history).filterMap Event.committed?

theorem mem_filterMap_committed? {history : List Event} {id : TxnId} :
    id ∈ history.filterMap Event.committed? ↔ .committed id ∈ history := by
  simp only [List.mem_filterMap]
  constructor
  · intro given
    obtain ⟨event, member, same⟩ := given
    cases event with
    | committed other =>
        cases same
        exact member
    | granted access | dropped other => contradiction
  · exact fun member => ⟨_, member, rfl⟩

theorem Settled.nodup_committed {history : List Event} (settled : Settled history) :
    (history.filterMap Event.committed?).Nodup := by
  refine List.Pairwise.filterMap _ (fun earlier later apart first firstId second secondId => ?_) settled
  rw [Event.eq_of_committed? firstId] at apart
  rw [Event.eq_of_committed? secondId] at apart
  exact (apart first (by simp [Event.ends])).symm

theorem mem_rivals {rival id : TxnId} {history : List Event} :
    rival ∈ rivals id history ↔ .committed rival ∈ since id history :=
  mem_filterMap_committed?

theorem mem_of_mem_since {id : TxnId} {history : List Event} {event : Event}
    (member : event ∈ since id history) : event ∈ history :=
  (List.rtakeWhile_suffix _ _).subset ((List.dropWhile_suffix _).subset member)

/-- A nonempty `since` contains an event of the transaction itself. -/
theorem exists_own_of_begun {id : TxnId} {history : List Event} (begun : since id history ≠ []) :
    ∃ own ∈ since id history, own.id = id := by
  have first : decide (((since id history).head begun).id ≠ id) = false :=
    List.head_dropWhile_not _ begun
  exact ⟨_, List.head_mem begun, by simpa using first⟩

theorem exists_own_of_mem_since {id : TxnId} {history : List Event} {event : Event}
    (member : event ∈ since id history) : ∃ own ∈ history, own.id = id := by
  obtain ⟨own, recent, mine⟩ := exists_own_of_begun (List.ne_nil_of_mem member)
  exact ⟨own, mem_of_mem_since recent, mine⟩

theorem mem_since_or_mem {id : TxnId} {past events : List Event} {event : Event}
    (member : event ∈ since id (past ++ events)) : event ∈ since id past ∨ event ∈ events := by
  induction events using List.reverseRecOn with
  | nil =>
      rw [List.append_nil] at member
      exact .inl member
  | append_singleton events last ih =>
      rw [← List.append_assoc, since_concat] at member
      split at member
      · contradiction
      · split at member
        · contradiction
        · rcases List.mem_append.mp member with old | new
          · exact (ih old).imp_right (List.mem_append_left _)
          · exact .inr (List.mem_append_right _ new)

/-- An event of another transaction extends `since` if it is nonempty. -/
theorem since_concat_of_ne {id : TxnId} {event : Event} (history : List Event)
    (other : event.id ≠ id) :
    since id (history ++ [event]) =
      if since id history = [] then [] else since id history ++ [event] := by
  have undropped : event ≠ .dropped id := by
    intro same
    subst same
    exact other rfl
  rw [since_concat, if_neg undropped]
  simp [other]

theorem since_concat_self {id : TxnId} (history : List Event) (event : Event)
    (own : event.id = id) (undropped : event ≠ .dropped id) :
    since id (history ++ [event]) = since id history ++ [event] := by
  rw [since_concat, if_neg undropped, if_neg (fun both => both.2 own)]

theorem since_concat_dropped (id : TxnId) (history : List Event) :
    since id (history ++ [.dropped id]) = [] := by
  rw [since_concat, if_pos rfl]

theorem since_concat_eq_nil {id : TxnId} {event : Event} (history : List Event)
    (other : event.id ≠ id) : since id (history ++ [event]) = [] ↔ since id history = [] := by
  rw [since_concat_of_ne history other]
  split
  · rename_i empty
    simp [empty]
  · rename_i some
    simp [some]

theorem mem_since_concat_of_ne {id : TxnId} {event earlier : Event} (history : List Event)
    (other : event.id ≠ id) (different : earlier ≠ event) :
    earlier ∈ since id (history ++ [event]) ↔ earlier ∈ since id history := by
  rw [since_concat_of_ne history other]
  split
  · rename_i empty
    rw [empty]
  · simp [different]

theorem since_concat_begun {id : TxnId} {history : List Event} {last : Event}
    (begun : since id history ≠ []) (undropped : last ≠ .dropped id) :
    since id (history ++ [last]) = since id history ++ [last] := by
  rw [since_concat, if_neg undropped, if_neg fun both => begun both.1]

theorem mem_since_append {id : TxnId} {history : List Event} {event last : Event}
    (member : event ∈ since id history) (undropped : last ≠ .dropped id) :
    event ∈ since id (history ++ [last]) := by
  rw [since_concat_begun (List.ne_nil_of_mem member) undropped]
  exact List.mem_append_left _ member

/-- Without a drop, `since` contains all events of the transaction. -/
theorem mem_since {id : TxnId} {history : List Event} {event : Event} (member : event ∈ history)
    (own : event.id = id) (undropped : .dropped id ∉ history) : event ∈ since id history := by
  induction history using List.reverseRecOn with
  | nil => contradiction
  | append_singleton past last ih =>
      simp only [List.mem_append, List.mem_singleton, not_or] at member undropped
      rcases member with old | rfl
      · exact mem_since_append (ih old undropped.1) (Ne.symm undropped.2)
      · rw [since_concat_self past event own (Ne.symm undropped.2)]
        simp

/-- No rival of the transaction has written an object that the transaction has read. -/
def Unopposed (id : TxnId) (history : List Event) : Prop :=
  ∀ rival ∈ rivals id history, ∀ object ∈ touched .write rival history,
    object ∉ touched .read id history

namespace AccessRecord

def objects (record : AccessRecord) : Action → ObjectSet
  | .read => record.reads
  | .write => record.writes

theorem mem_objects_note {record : AccessRecord} {object other : ObjectId}
    {action kind : Action} :
    other ∈ (record.note object action).objects kind ↔
      other ∈ record.objects kind ∨ (object = other ∧ action = kind) := by
  cases action <;> cases kind <;>
    simp [objects, note, Std.ExtTreeSet.mem_insert, or_comm]

theorem mem_missed {record other : AccessRecord} {object : ObjectId} :
    object ∈ record.missed other ↔ object ∈ other.objects .write ∧ object ∈ record.objects .read := by
  simp [missed, objects]

theorem missed_pairwise (record other : AccessRecord) :
    (record.missed other).Pairwise (· < ·) := by
  have ascending : other.writes.toList.Pairwise fun first second => compare first second = .lt :=
    Std.ExtTreeSet.ordered_toList
  exact (ascending.imp fun order => compareOfLessAndEq_eq_lt.mp order).filter _

theorem against_of_before {record other : AccessRecord} {validation finish : Timestamp}
    {id : TxnId} (finished : other.finish = some finish) (before : finish < record.start) :
    record.against validation id other = [] := by
  simp [against, finished, before]

theorem against_of_between {record other : AccessRecord} {validation finish : Timestamp}
    {id : TxnId} (finished : other.finish = some finish) (begun : record.start < finish)
    (ended : finish < validation) :
    record.against validation id other =
      if record.missed other = [] then [] else [⟨id, record.missed other⟩] := by
  have notBefore : ¬ finish < record.start := Nat.not_lt_of_lt begun
  simp [against, finished, notBefore, begun, ended]

end AccessRecord

namespace Ledger

variable {ledger : Ledger} {history : List Event}

theorem record?_put (ledger : Ledger) (id other : TxnId) (record : AccessRecord) :
    (ledger.put id record).record? other =
      if id = other then some record else ledger.record? other := by
  simp only [record?, put, Std.ExtTreeMap.getElem?_insert, Std.LawfulEqCmp.compare_eq_iff_eq]

theorem access_eq (ledger : Ledger) (id : TxnId) (object : ObjectId) (action : Action) :
    ledger.access id object action =
      (ledger.touch id).2.put id ((ledger.touch id).1.note object action) := rfl

theorem touch_of_found {id : TxnId} {record : AccessRecord}
    (found : ledger.record? id = some record) : ledger.touch id = (record, ledger) := by
  simp only [touch, found]

/-- The representation relation between a ledger and a history. -/
structure Agrees (ledger : Ledger) (history : List Event) : Prop where
  committed : ledger.committed = history.filterMap Event.committed?
  kept : ∀ id, ledger.record? id = none ↔ since id history = []
  noted : ∀ {id : TxnId} {record : AccessRecord}, ledger.record? id = some record →
    ∀ object action, object ∈ record.objects action ↔
      .granted ⟨id, object, action⟩ ∈ since id history
  started : ∀ {id : TxnId} {record : AccessRecord}, ledger.record? id = some record →
    record.start ≤ ledger.clock
  finished : ∀ id ∈ ledger.committed, ∃ record validation finish,
    ledger.record? id = some record ∧ record.validation = some validation ∧
      record.finish = some finish ∧ validation < finish ∧ finish ≤ ledger.clock
  /-- For an uncommitted transaction with a record, a committed transaction is a rival exactly if it
  finished after the record was created. -/
  ordered : ∀ {id rival : TxnId} {record other : AccessRecord} {finish : Timestamp},
    id ∉ ledger.committed → ledger.record? id = some record → rival ∈ ledger.committed →
      ledger.record? rival = some other → other.finish = some finish →
        if .committed rival ∈ since id history then record.start < finish
        else finish < record.start

namespace Agrees

theorem empty : Agrees {} [] where
  committed := rfl
  kept _ := by simp [record?, since]
  noted found := by simp [record?] at found
  started found := by simp [record?] at found
  finished id member := by contradiction
  ordered _ found := by simp [record?] at found

/-- Removing the record of an uncommitted transaction corresponds to a `dropped` event. -/
theorem drop {next : Ledger} {id : TxnId} (agrees : ledger.Agrees history)
    (uncommitted : id ∉ ledger.committed) (gone : next.record? id = none)
    (others : ∀ {other : TxnId}, other ≠ id → next.record? other = ledger.record? other)
    (committed : next.committed = ledger.committed) (clock : ledger.clock ≤ next.clock) :
    next.Agrees (history ++ [.dropped id]) := by
  have kept {other : TxnId} {record : AccessRecord} (found : next.record? other = some record) :
      other ≠ id ∧ ledger.record? other = some record := by
    have different : other ≠ id := by
      intro same
      subst same
      rw [gone] at found
      contradiction
    exact ⟨different, others different ▸ found⟩
  constructor
  case committed =>
      rw [committed, agrees.committed]
      simp [Event.committed?]
  case kept =>
      intro other
      by_cases own : other = id
      · rw [own, gone, since_concat_dropped]
        simp
      · rw [others own, since_concat_eq_nil history (Ne.symm own)]
        exact agrees.kept other
  case noted =>
      intro other record found object action
      obtain ⟨different, before⟩ := kept found
      rw [mem_since_concat_of_ne history (Ne.symm different) (by simp)]
      exact agrees.noted before object action
  case started =>
      intro other record found
      exact Nat.le_trans (agrees.started (kept found).2) clock
  case finished =>
      intro rival member
      rw [committed] at member
      have different : rival ≠ id := fun same => uncommitted (same ▸ member)
      obtain ⟨record, validation, finish, found, validated, finished, order, bound⟩ :=
        agrees.finished rival member
      exact ⟨record, validation, finish, (others different).trans found, validated, finished, order,
        Nat.le_trans bound clock⟩
  case ordered =>
      intro target rival record other finish running found member rivalFound finished
      rw [committed] at running member
      obtain ⟨different, before⟩ := kept found
      simp only [mem_since_concat_of_ne history (Ne.symm different)
        (show Event.committed rival ≠ .dropped id by simp)]
      exact agrees.ordered running before member (kept rivalFound).2 finished

end Agrees

/-- The postcondition of `touch`: the record returned is the existing one or a new one with the
current time. -/
structure Touched (ledger next : Ledger) (history : List Event) (id : TxnId)
    (record : AccessRecord) : Prop where
  present : next.record? id = some record
  others : ∀ {other : TxnId}, other ≠ id → next.record? other = ledger.record? other
  committed : next.committed = ledger.committed
  clock : ledger.clock ≤ next.clock
  started : record.start ≤ next.clock
  noted : ∀ object action, object ∈ record.objects action ↔
    .granted ⟨id, object, action⟩ ∈ since id history
  ordered : ∀ {rival : TxnId} {other : AccessRecord} {finish : Timestamp},
    rival ∈ ledger.committed → ledger.record? rival = some other → other.finish = some finish →
      if .committed rival ∈ since id history then record.start < finish
      else finish < record.start

theorem Agrees.touch {id : TxnId} (agrees : ledger.Agrees history)
    (uncommitted : id ∉ ledger.committed) :
    Touched ledger (ledger.touch id).2 history id (ledger.touch id).1 := by
  cases found : ledger.record? id with
  | some record =>
      rw [touch_of_found found]
      exact {
        present := found
        others := fun _ => rfl
        committed := rfl
        clock := Nat.le_refl _
        started := agrees.started found
        noted := agrees.noted found
        ordered := agrees.ordered uncommitted found }
  | none =>
      have untouched : since id history = [] := (agrees.kept id).mp found
      have made : ledger.touch id = ({ start := ledger.clock + 1 },
          { ledger.put id { start := ledger.clock + 1 } with clock := ledger.clock + 1 }) := by
        simp only [Ledger.touch, found]
      rw [made]
      constructor
      case present => exact (record?_put ledger id id _).trans (if_pos rfl)
      case others =>
          intro other different
          exact (record?_put ledger id other _).trans (if_neg (Ne.symm different))
      case committed => rfl
      case clock => exact Nat.le_succ _
      case started => exact Nat.le_refl _
      case noted =>
          intro object action
          rw [untouched]
          cases action <;> simp [AccessRecord.objects]
      case ordered =>
          -- Every finish so far precedes the start of the new record.
          intro rival other finish member rivalFound finished
          obtain ⟨record, _, bound, recordFound, _, recordFinished, _, le⟩ :=
            agrees.finished rival member
          rw [rivalFound, Option.some.injEq] at recordFound
          rw [← recordFound, finished, Option.some.injEq] at recordFinished
          rw [untouched, if_neg List.not_mem_nil, recordFinished]
          exact Nat.lt_succ_of_le le

namespace Agrees

/-- Updating the record of an uncommitted transaction corresponds to a granted access or a commit of
this transaction. -/
theorem extend {after : Ledger} {id : TxnId} {record : AccessRecord} {event : Event}
    (agrees : ledger.Agrees history) (uncommitted : id ∉ ledger.committed)
    (own : event.id = id) (undropped : event ≠ .dropped id)
    (present : after.record? id = some record)
    (others : ∀ {other : TxnId}, other ≠ id → after.record? other = ledger.record? other)
    (committed : after.committed = ledger.committed ++ event.committed?.toList)
    (clock : ledger.clock ≤ after.clock) (started : record.start ≤ after.clock)
    (noted : ∀ object action, object ∈ record.objects action ↔
      .granted ⟨id, object, action⟩ ∈ since id history ++ [event])
    (finished : event = .committed id → ∃ validation finish, record.validation = some validation ∧
      record.finish = some finish ∧ ledger.clock < finish ∧ validation < finish ∧
        finish ≤ after.clock)
    (ordered : ∀ {rival : TxnId} {other : AccessRecord} {finish : Timestamp},
      rival ∈ ledger.committed → ledger.record? rival = some other → other.finish = some finish →
        if .committed rival ∈ since id history then record.start < finish
        else finish < record.start) :
    after.Agrees (history ++ [event]) := by
  have grown : since id (history ++ [event]) = since id history ++ [event] :=
    since_concat_self history event own undropped
  have apart {other : TxnId} (different : other ≠ id) : event.id ≠ other := by
    rw [own]
    exact different.symm
  have differ {other : TxnId} (different : other ≠ id) : .committed other ≠ event := by
    intro same
    subst same
    exact different own
  -- A listed transaction was listed before, or commits with this event.
  have listed {rival : TxnId} (member : rival ∈ after.committed) :
      (rival ≠ id ∧ rival ∈ ledger.committed) ∨ (rival = id ∧ event = .committed id) := by
    rw [committed, List.mem_append] at member
    rcases member with old | new
    · exact .inl ⟨fun same => uncommitted (same ▸ old), old⟩
    · cases event with
      | committed other =>
          cases own
          simp only [Event.committed?, Option.toList_some, List.mem_singleton] at new
          exact .inr ⟨new, rfl⟩
      | granted access | dropped other => simp [Event.committed?] at new
  constructor
  case committed =>
      rw [committed, agrees.committed, List.filterMap_append]
      cases event <;> rfl
  case kept =>
      intro other
      by_cases self : other = id
      · rw [self, present, grown]
        simp
      · rw [others self, since_concat_eq_nil history (apart self)]
        exact agrees.kept other
  case noted =>
      intro other found recordFound object action
      by_cases self : other = id
      · subst self
        cases present.symm.trans recordFound
        rw [grown]
        exact noted object action
      · have different : .granted ⟨other, object, action⟩ ≠ event := by
          intro same
          subst same
          exact self own
        rw [mem_since_concat_of_ne history (apart self) different]
        exact agrees.noted ((others self).symm.trans recordFound) object action
  case started =>
      intro other found recordFound
      by_cases self : other = id
      · subst self
        cases present.symm.trans recordFound
        exact started
      · exact Nat.le_trans (agrees.started ((others self).symm.trans recordFound)) clock
  case finished =>
      intro rival member
      rcases listed member with ⟨different, old⟩ | ⟨rfl, commits⟩
      · obtain ⟨other, validation, finish, found, validated, finished, order, bound⟩ :=
          agrees.finished rival old
        exact ⟨other, validation, finish, (others different).trans found, validated, finished,
          order, Nat.le_trans bound clock⟩
      · obtain ⟨validation, finish, validated, ended, _, order, bound⟩ := finished commits
        exact ⟨record, validation, finish, present, validated, ended, order, bound⟩
  case ordered =>
      intro target rival running other finish unfinished found member rivalFound ended
      rcases listed member with ⟨different, old⟩ | ⟨rfl, commits⟩
      · rw [others different] at rivalFound
        by_cases self : target = id
        · subst self
          cases present.symm.trans found
          have unchanged : .committed rival ∈ since target history ++ [event] ↔
              .committed rival ∈ since target history := by simp [differ different]
          simp only [grown, unchanged]
          exact ordered old rivalFound ended
        · have running : target ∉ ledger.committed := fun present =>
            unfinished (committed ▸ List.mem_append_left _ present)
          simp only [mem_since_concat_of_ne history (apart self) (differ different)]
          exact agrees.ordered running ((others self).symm.trans found) old rivalFound ended
      · have self : target ≠ rival := fun same => unfinished (same ▸ member)
        have before : ledger.record? target = some running := (others self).symm.trans found
        have begun : since target history ≠ [] := fun empty => by
          rw [(agrees.kept target).mpr empty] at before
          contradiction
        cases present.symm.trans rivalFound
        obtain ⟨_, latest, _, endedLatest, late, _⟩ := finished commits
        rw [ended, Option.some.injEq] at endedLatest
        rw [commits, since_concat_begun begun (by simp),
          if_pos (List.mem_append_right _ (List.mem_singleton_self _)), endedLatest]
        exact Nat.lt_of_le_of_lt (agrees.started before) late

theorem access {id : TxnId} (agrees : ledger.Agrees history) (uncommitted : id ∉ ledger.committed)
    (object : ObjectId) (action : Action) :
    (ledger.access id object action).Agrees (history ++ [.granted ⟨id, object, action⟩]) := by
  obtain ⟨_, others, committed, clock, started, noted, ordered⟩ := agrees.touch uncommitted
  rw [access_eq]
  generalize (ledger.touch id).1 = record at *
  generalize (ledger.touch id).2 = next at *
  have start : (record.note object action).start = record.start := by cases action <;> rfl
  apply agrees.extend uncommitted rfl (by simp) ((record?_put _ id id _).trans (if_pos rfl))
  case others =>
      intro other different
      exact (record?_put _ id other _).trans
        ((if_neg (Ne.symm different)).trans (others different))
  case committed => exact committed.trans (List.append_nil _).symm
  case clock => exact clock
  case started =>
      rw [start]
      exact started
  case noted =>
      intro asked kind
      rw [AccessRecord.mem_objects_note, noted]
      simp [eq_comm]
  case finished =>
      intro commits
      contradiction
  case ordered =>
      rw [start]
      exact ordered

end Agrees

end Ledger

end Isolation
