import Isolation.Proofs.Refusals

/-!
Active transactions whose requests conflict with no request of a transaction that they meet. All
accesses of such a transaction are allowed, no call of another transaction aborts it, and its commit
succeeds.
-/

namespace Isolation

def Move.ends : Move → TxnId → Bool
  | .finish target _, id | .evict target, id => target = id
  | .begin, _ | .access _ _ _, _ | .log _ _, _ => false

namespace Engine

variable {β : Type} [Discipline β] {engine : Engine β} {past : List Event} {id : TxnId}

theorem finish_of_active (orderly : engine.Orderly) (active : engine.status? id = some .active) :
    (engine.finish id true).1 = .ok (Discipline.accept engine.books id).1 := by
  obtain ⟨handle, txn, found, running⟩ := find?_of_active active
  have undecided : txn.status = .active ∨ txn.status = .aborted := .inl (of_decide_eq_true running)
  rw [finish_answer found, (conclude_of_undecided engine.books undecided _).1, running,
    ← orderly.id_of_find? found]
  rfl

theorem ends_of_mem_events {move : Move} {event : Event} (member : event ∈ engine.events move)
    (ended : event.ends id = true) : move.ends id = true := by
  cases move with
  | finish target commit =>
      simp only [events] at member
      split at member
      · rw [List.mem_singleton.mp member] at ended
        exact ended
      · contradiction
      · rw [List.mem_singleton.mp member] at ended
        exact ended
      · rw [List.mem_singleton.mp member] at ended
        exact ended
  | evict target =>
      simp only [events] at member
      split at member
      · rw [List.mem_singleton.mp member] at ended
        exact ended
      · contradiction
  | access object target action =>
      simp only [events] at member
      split at member
      · rw [List.mem_singleton.mp member] at ended
        contradiction
      · contradiction
  | begin => contradiction
  | log target row => contradiction

def asks (engine : Engine β) : Move → List Access
  | .access object id action => if id ∈ engine.roster.live then [{ id, object, action }] else []
  | .begin | .finish _ _ | .log _ _ | .evict _ => []

def asksOf (engine : Engine β) : List Move → List Access
  | [] => []
  | move :: rest => engine.asks move ++ (engine.after move).asksOf rest

/-- The accesses that a call requests for a live transaction. Of a batch these are the objects up to
and including the first refused one. -/
def requests (engine : Engine β) (call : Call) : List Access :=
  engine.asksOf (engine.moves call)

omit [Discipline β] in
theorem mem_asks {object : ObjectId} {action : Action} (live : id ∈ engine.roster.live) :
    ⟨id, object, action⟩ ∈ engine.asks (.access object id action) := by
  rw [asks, if_pos live]
  exact List.mem_singleton_self _

theorem mem_asks_of_granted {move : Move} {access : Access}
    (granted : .granted access ∈ engine.events move) : access ∈ engine.asks move := by
  have live : access.id ∈ engine.roster.live := by
    rcases engine.events_cases move with none | ⟨event, one, live⟩
    · rw [none] at granted
      contradiction
    · rw [one, List.mem_singleton] at granted
      rw [← granted] at live
      exact live
  rw [(access_of_granted granted).1]
  exact mem_asks live

theorem mem_asksOf_of_granted {moves : List Move} {access : Access}
    (granted : .granted access ∈ engine.eventsOf moves) : access ∈ engine.asksOf moves := by
  induction moves generalizing engine with
  | nil => contradiction
  | cons move rest ih =>
      rw [eventsOf, List.mem_append] at granted
      exact List.mem_append.mpr (granted.imp mem_asks_of_granted ih)

/-- The invariant of a conflict-free transaction. `company` contains every transaction that it has
met, `requested` contains every granted access, and no request of a member of `company` conflicts
with one of its own. -/
structure ConflictFree [Discipline.RefusesOnlyConflicts β] (engine : Engine β) (past : List Event)
    (id : TxnId)
    (company : TxnId → Prop) (requested : List Access) : Prop where
  sound : Discipline.RefusesOnlyConflicts.Sound engine past
  active : engine.status? id = some .active
  present : ∀ other ∈ engine.roster.live, company other
  met : ∀ event ∈ past, engine.Met past id event.id → company event.id
  known : ∀ access, .granted access ∈ past → access ∈ requested
  apart : ∀ own ∈ requested, ∀ rival ∈ requested, own.id = id → rival.id ≠ id →
    rival.Conflicts own → ¬ company rival.id

namespace ConflictFree

variable [Discipline.RefusesOnlyConflicts β] {company : TxnId → Prop} {requested : List Access}
  {object : ObjectId} {target : TxnId} {action : Action}

theorem unopposed (free : engine.ConflictFree past id company requested)
    {own : Access} (requests : own ∈ requested)
    (mine : own.id = id) : ¬ engine.Opposed past own := by
  intro opposed
  obtain ⟨rival, granted, different, conflict, met⟩ := opposed
  exact free.apart own requests rival (free.known rival granted) mine (mine ▸ different) conflict
    (free.met _ granted (mine ▸ met))

theorem isAllowed (free : engine.ConflictFree past id company requested)
    (requests : ⟨id, object, action⟩ ∈ requested) :
    (engine.access object id action).1.isAllowed = true := by
  by_contra refused
  exact free.unopposed requests rfl
    (Discipline.RefusesOnlyConflicts.refused free.sound free.active (Bool.eq_false_iff.mpr refused))

theorem finish_eq (free : engine.ConflictFree past id company requested) :
    (engine.finish id true).1 = .ok true := by
  rw [finish_of_active (Discipline.RefusesOnlyConflicts.chronicle free.sound).orderly free.active]
  cases accepted : (Discipline.accept engine.books id).1 with
  | true => rfl
  | false =>
      obtain ⟨own, granted, mine, opposed⟩ :=
        Discipline.RefusesOnlyConflicts.rejected free.sound free.active accepted
      exact absurd opposed (free.unopposed (free.known own granted) mine)

theorem active_access (free : engine.ConflictFree past id company requested)
    (asked : ∀ access ∈ engine.asks (.access object target action), access ∈ requested) :
    (engine.access object target action).2.status? id = some .active := by
  by_cases mine : target = id
  · subst mine
    have requests := asked _ (mem_asks (mem_live_of_status? free.active))
    exact Discipline.RefusesOnlyConflicts.allowed free.sound free.active (free.isAllowed requests)
  · by_contra wounded
    obtain ⟨live, own, granted, same, conflict⟩ :=
      Discipline.RefusesOnlyConflicts.wounded free.sound free.active mine wounded
    exact free.apart own (free.known own granted) _ (asked _ (mem_asks live)) same mine conflict.symm
      (free.present target live)

theorem move (free : engine.ConflictFree past id company requested)
    {move : Move} (asked : ∀ access ∈ engine.asks move, access ∈ requested)
    (present : ∀ other ∈ (engine.after move).roster.live, company other)
    (spared : move.ends id = false) :
    (engine.after move).ConflictFree (past ++ engine.events move) id company requested := by
  have chronicle := Discipline.RefusesOnlyConflicts.chronicle free.sound
  -- The transaction of an event of the move was live before it.
  have beside {event : Event} (new : event ∈ engine.events move) : company event.id := by
    rcases engine.events_cases move with none | ⟨only, one, live⟩
    · rw [none] at new
      contradiction
    · rw [one, List.mem_singleton] at new
      exact free.present _ (new ▸ live)
  constructor
  case sound => exact Discipline.RefusesOnlyConflicts.move free.sound move
  case active =>
      have unended : ∀ event ∈ engine.events move, event.ends id = false := fun event member =>
        Bool.eq_false_iff.mpr fun ended => by
          rw [ends_of_mem_events member ended] at spared
          contradiction
      have live := (engine.mem_live_after move id).mpr
        (.inl ⟨mem_live_of_status? free.active, unended⟩)
      rcases chronicle.orderly.status?_after move live with
        same | ⟨_, _, begun⟩ | ⟨object, target, action, rfl, _⟩
      · exact same.trans free.active
      · exact begun
      · exact free.active_access asked
  case present => exact present
  case met =>
      intro event member met
      rcases List.mem_append.mp member with old | new
      · rcases met with live | younger | ⟨touch, recent, same⟩
        · exact present _ live
        · exact free.met event old (.inr (.inl younger))
        · rcases mem_since_or_mem recent with before | new
          · exact free.met event old (.inr (.inr ⟨touch, before, same⟩))
          · exact same ▸ beside new
      · exact beside new
  case known =>
      intro access granted
      rcases List.mem_append.mp granted with old | new
      · exact free.known access old
      · exact asked access (mem_asks_of_granted new)
  case apart => exact free.apart

theorem batch (free : engine.ConflictFree past id company requested)
    {objects : List ObjectId}
    (asked : ∀ access ∈ engine.asksOf (engine.asked target action objects), access ∈ requested) :
    ((engine.asked target action objects).foldl Engine.after engine).ConflictFree
        (past ++ engine.eventsOf (engine.asked target action objects)) id company requested ∧
      (target = id → ∀ verdict : Verdict, verdict.isAllowed = true →
        (accessFrom verdict engine target action objects).1.isAllowed = true) := by
  -- Induction on the objects. An access begins no transaction, so `company` serves all of them.
  induction objects generalizing engine past with
  | nil =>
      rw [Engine.asked, eventsOf, List.append_nil]
      exact ⟨free, fun _ verdict allowed => allowed⟩
  | cons object rest ih =>
      simp only [Engine.asked, asksOf, List.forall_mem_append] at asked
      have next := free.move asked.1
        (fun other live => free.present other
          (by rwa [← (engine.access_live object target action).1]))
        rfl
      simp only [Engine.asked, eventsOf, accessFrom, List.foldl_cons]
      rw [← List.append_assoc]
      cases allowed : (engine.access object target action).1.isAllowed with
      | true =>
          rw [allowed] at asked
          obtain ⟨kept, granted⟩ := ih next asked.2
          exact ⟨kept, fun mine _ _ => granted mine _ allowed⟩
      | false =>
          refine ⟨by simpa [eventsOf] using next, fun mine => ?_⟩
          subst mine
          have requests := asked.1 _ (mem_asks (mem_live_of_status? free.active))
          rw [free.isAllowed requests] at allowed
          contradiction

theorem step (free : engine.ConflictFree past id company requested)
    {call : Call} (asked : ∀ access ∈ engine.requests call, access ∈ requested)
    (present : ∀ other ∈ (engine.step call).2.roster.live, company other)
    (spared : call.ends id = false) :
    (engine.step call).2.ConflictFree (past ++ engine.eventsOf (engine.moves call)) id company
      requested := by
  have single {move : Move} (only : engine.moves call = [move])
      (spared : move.ends id = false) :
      (engine.step call).2.ConflictFree (past ++ engine.eventsOf (engine.moves call)) id company
        requested := by
    rw [requests, only, asksOf, asksOf, List.append_nil] at asked
    rw [step_eq_moves, only] at present ⊢
    rw [eventsOf, eventsOf, List.append_nil]
    exact free.move asked present spared
  cases call with
  | begin => exact single rfl rfl
  | access object target action => exact single rfl rfl
  | accessAll objects target action =>
      rw [step_eq_moves]
      exact (free.batch asked).1
  | finish target commit => exact single rfl spared
  | log target row => exact single rfl rfl
  | shutdown => contradiction
  | logged _ | look _ | active | counters =>
      rw [step_eq_moves, moves, eventsOf, List.append_nil]
      exact free

theorem granted (free : engine.ConflictFree past id company requested)
    {call : Call} (asked : ∀ access ∈ engine.requests call, access ∈ requested)
    (asks : call.asker? = some id) : ∃ grant, (engine.step call).1 = .judged (.allowed grant) := by
  have answer {verdict : Verdict} (allowed : verdict.isAllowed = true) :
      ∃ grant, Answer.judged verdict = .judged (.allowed grant) := by
    cases verdict with
    | allowed grant => exact ⟨grant, rfl⟩
    | refused refusal => contradiction
  cases call with
  | access object target action =>
      cases asks
      rw [requests, moves, asksOf, asksOf, List.append_nil] at asked
      exact answer (free.isAllowed (asked _ (mem_asks (mem_live_of_status? free.active))))
  | accessAll objects target action =>
      cases asks
      exact answer ((free.batch asked).2 rfl _ rfl)
  | _ => contradiction

end ConflictFree

def Accounted [Discipline.RefusesOnlyConflicts β] (requested : List Access)
    (engine : Engine β) : Prop :=
  ∃ past, Discipline.RefusesOnlyConflicts.Sound engine past ∧
    ∀ access, .granted access ∈ past → access ∈ requested

theorem Accounted.append [Discipline.RefusesOnlyConflicts β] {requested : List Access}
    (accounted : engine.Accounted requested) (more : List Access) :
    engine.Accounted (requested ++ more) := by
  obtain ⟨past, sound, known⟩ := accounted
  exact ⟨past, sound, fun access granted => List.mem_append_left _ (known access granted)⟩

theorem Accounted.step [Discipline.RefusesOnlyConflicts β] {requested : List Access}
    (accounted : engine.Accounted requested) (call : Call) :
    (engine.step call).2.Accounted (requested ++ engine.requests call) := by
  obtain ⟨past, sound, known⟩ := accounted
  have next := kept_by_moves Discipline.RefusesOnlyConflicts.move sound (engine.moves call)
  rw [← step_eq_moves] at next
  refine ⟨_, next, ?_⟩
  intro access granted
  exact List.mem_append.mpr ((List.mem_append.mp granted).imp (known access) mem_asksOf_of_granted)

theorem Accounted.mem_ids_step [Discipline.RefusesOnlyConflicts β] {requested : List Access}
    (accounted : engine.Accounted requested) (call : Call) :
    id ∈ (engine.step call).2.roster.ids ↔
      (id ∈ engine.roster.ids ∧ call.ends id = false) ∨ (call = .begin ∧ engine.begin.1 = id) := by
  obtain ⟨past, sound, _⟩ := accounted
  rw [Roster.mem_ids, Roster.mem_ids, @eq_comm _ engine.begin.1]
  exact (Discipline.RefusesOnlyConflicts.chronicle sound).orderly.mem_live_step call id

theorem Accounted.begin [Discipline.RefusesOnlyConflicts β] {requested total : List Access}
    {company : TxnId → Prop} (accounted : engine.Accounted requested)
    (included : ∀ access ∈ requested, access ∈ total)
    (present : ∀ other ∈ engine.begin.2.roster.live, company other)
    (apart : ∀ own ∈ total, ∀ rival ∈ total, own.id = engine.begin.1 →
      rival.id ≠ engine.begin.1 → rival.Conflicts own → ¬ company rival.id) :
    ∃ past, engine.begin.2.ConflictFree past engine.begin.1 company total := by
  obtain ⟨past, sound, known⟩ := accounted
  have chronicle := Discipline.RefusesOnlyConflicts.chronicle sound
  have next := Discipline.RefusesOnlyConflicts.move sound .begin
  rw [events, List.append_nil] at next
  have unheard {event : Event} (member : event ∈ past) : event.id ≤ engine.last :=
    (chronicle.bounded event member).2
  have name : engine.begin.1 = engine.last + 1 := rfl
  refine ⟨past, ?_⟩
  constructor
  case sound => exact next
  case active => exact engine.status?_begin
  case present => exact present
  case met =>
      intro event member met
      have old := unheard member
      rcases met with live | younger | ⟨touch, recent, same⟩
      · exact present _ live
      · lia
      · obtain ⟨own, heard, mine⟩ := exists_own_of_mem_since recent
        have bound := unheard heard
        lia
  case known => exact fun access granted => included access (known access granted)
  case apart => exact apart

end Engine

end Isolation
