import Isolation.Proofs.Numbering
import Isolation.Proofs.ShiftedBooks

/-!
Equivalence of a restarted controller and a new one. The books of an engine without live
transactions are related by `CommutesWithShift.Shifted` to the empty books, and every call preserves
the relation. Hence the answers after a restart are those of a new controller with all numbers
shifted and with the counters added to their values at the restart.
-/

namespace Isolation

namespace Engine

variable {β : Type} [Discipline β] [Discipline.CommutesWithShift β] {n : Nat} {base : Counters}
  {old new : Engine β}

/-- The simulation relation between a used engine and a new one whose numbers are smaller by `n`. -/
structure Shifted (n : Nat) (base : Counters) (old new : Engine β) : Prop where
  orderly_old : old.Orderly
  orderly_new : new.Orderly
  undecided_old : old.Undecided
  undecided_new : new.Undecided
  last : old.last = new.last + n
  counters : old.counters = base + new.counters
  roster : Roster.Shifted n old.roster new.roster
  books : Discipline.CommutesWithShift.Shifted n old.books new.books

namespace Shifted

theorem moved (shifted : Shifted n base old new) (ahead behind : Move)
    (last : (old.after ahead).last = (new.after behind).last + n)
    (counters : (old.after ahead).counters = base + (new.after behind).counters)
    (roster : Roster.Shifted n (old.after ahead).roster (new.after behind).roster)
    (books : Discipline.CommutesWithShift.Shifted n (old.after ahead).books (new.after behind).books) :
    Shifted n base (old.after ahead) (new.after behind) where
  orderly_old := shifted.orderly_old.after ahead
  orderly_new := shifted.orderly_new.after behind
  undecided_old := shifted.undecided_old.after shifted.orderly_old ahead
  undecided_new := shifted.undecided_new.after shifted.orderly_new behind
  last := last
  counters := counters
  roster := roster
  books := books

/-- An engine without live transactions is related to one with related books and an empty roster. -/
theorem of_nobody {engine : Engine β} (orderly : engine.Orderly)
    (nobody : ∀ id, id ∉ engine.roster.live) {books : β}
    (shifted : Discipline.CommutesWithShift.Shifted engine.last engine.books books) :
    Shifted engine.last engine.counters engine { books } where
  orderly_old := orderly
  orderly_new := ⟨rfl, fun seat => by simp at seat⟩
  undecided_old := undecided_of_nobody nobody
  undecided_new := undecided_of_nobody fun id live => by simp at live
  last := (Nat.zero_add _).symm
  counters := rfl
  roster := {
    made := fun handle => by
      have beyond : engine.roster.made.size ≤ handle + engine.last :=
        orderly.size_made ▸ Nat.le_add_left _ handle
      rw [Array.getElem?_eq_none beyond]
      simp
    live := fun id => by
      rw [Std.ExtTreeMap.getElem?_eq_none (nobody _)]
      simp
    beyond := fun id live => absurd live (nobody id) }
  books := shifted

theorem size_made (shifted : Shifted n base old new) :
    old.roster.made.size = new.roster.made.size + n := by
  rw [shifted.orderly_old.size_made, shifted.orderly_new.size_made, shifted.last]

theorem find?_none (shifted : Shifted n base old new) {id : TxnId}
    (absent : new.roster.find? id = none) : old.roster.find? (id + n) = none := by
  rw [shifted.roster.find?, absent, Option.map_none]

theorem find?_some (shifted : Shifted n base old new) {id : TxnId} {handle : Handle}
    {txn : Transaction} (found : new.roster.find? id = some (handle, txn)) :
    old.roster.find? (id + n) = some (handle + n, txn.shift n) := by
  rw [shifted.roster.find?, found, Option.map_some]

theorem begin (shifted : Shifted n base old new) :
    old.begin.1 = new.begin.1 + n ∧ Shifted n base old.begin.2 new.begin.2 := by
  have next : old.last + 1 = (new.last + 1) + n := by rw [shifted.last, Nat.add_right_comm]
  refine ⟨next, shifted.moved .begin .begin next ?_ ?_ shifted.books⟩
  · simp only [after, Engine.begin, shifted.counters, Counters.add_countBegin]
  · let newcomer (id : TxnId) : Transaction :=
      { id, timestamp := if Discipline.stamps β then some id else none }
    have begun : newcomer (old.last + 1) = (newcomer (new.last + 1)).shift n := by
      simp only [newcomer, next, Transaction.shift]
      split <;> rfl
    have joined := shifted.roster.add shifted.size_made (newcomer (new.last + 1))
    rw [← begun] at joined
    exact joined

theorem access (shifted : Shifted n base old new) (object : ObjectId) (id : TxnId) (action : Action) :
    (old.access object (id + n) action).1 = (new.access object id action).1.shift n ∧
      Shifted n base (old.access object (id + n) action).2 (new.access object id action).2 := by
  have answer_next : (old.access object (id + n) action).1 = (new.access object id action).1.shift n ∧
      Roster.Shifted n (old.access object (id + n) action).2.roster
        (new.access object id action).2.roster ∧
      Discipline.CommutesWithShift.Shifted n (old.access object (id + n) action).2.books
        (new.access object id action).2.books := by
    cases found : new.roster.find? id with
    | none =>
        simp only [Engine.access, found, shifted.find?_none found]
        exact ⟨rfl, shifted.roster, shifted.books⟩
    | some entry =>
        obtain ⟨handle, txn⟩ := entry
        obtain ⟨answer, made, books⟩ := Discipline.CommutesWithShift.judge ⟨old.roster.made, old.books⟩
          ⟨new.roster.made, new.books⟩ object action shifted.roster.made shifted.books
          shifted.orderly_new.numbered_made (Roster.find?_eq_some.mp found).2
        simp only [Engine.access, found, shifted.find?_some found]
        exact ⟨answer, ⟨made, shifted.roster.live, shifted.roster.beyond⟩, books⟩
  obtain ⟨answer, roster, books⟩ := answer_next
  refine ⟨answer, shifted.moved (.access object (id + n) action) (.access object id action) ?_ ?_
    roster books⟩
  · exact (old.access_live object (id + n) action).2.trans
      (shifted.last.trans (congrArg (· + n) (new.access_live object id action).2.symm))
  · simp only [after, access_counters, answer, shifted.counters, ← Counters.add_countVerdict]

theorem finish (shifted : Shifted n base old new) (id : TxnId) (commit : Bool) :
    (old.finish (id + n) commit).1 = (new.finish id commit).1.mapError (Error.shift n) ∧
      Shifted n base (old.finish (id + n) commit).2 (new.finish id commit).2 := by
  cases found : new.roster.find? id with
  | none =>
      rw [finish_absent found, finish_absent (shifted.find?_none found)]
      exact ⟨rfl, shifted⟩
  | some entry =>
      obtain ⟨handle, txn⟩ := entry
      have present := (Roster.find?_eq_some.mp found).2
      have name : txn.id = id := shifted.orderly_new.id_of_find? found
      have positive : 0 < txn.id :=
        name ▸ (shifted.orderly_new.bounds_of_live (Roster.mem_live_of_find? found)).1
      have ahead := shifted.undecided_old.finish_eq (shifted.find?_some found) commit
      have behind := shifted.undecided_new.finish_eq found commit
      obtain ⟨accepted, books⟩ := Discipline.CommutesWithShift.accept shifted.books positive
      have name_shift : (txn.shift n).id = txn.id + n := rfl
      simp only [Transaction.isActive_shift, name_shift, accepted] at ahead
      refine ⟨by rw [ahead, behind]; rfl, ?_⟩
      apply shifted.moved (.finish (id + n) commit) (.finish id commit)
      case last => simp only [after, ahead, behind, shifted.last]
      case counters => simp only [after, ahead, behind, shifted.counters, Counters.add_countEnd]
      case roster =>
          simp only [after, ahead, behind]
          exact (shifted.roster.put present { txn with status := .terminated }).remove id
      case books =>
          simp only [after, ahead, behind]
          apply Discipline.CommutesWithShift.leave _ (name ▸ positive)
          split
          · exact books
          · exact shifted.books

theorem log (shifted : Shifted n base old new) (id : TxnId) (row : Row) :
    Shifted n base (old.log (id + n) row) (new.log id row) := by
  cases found : new.roster.find? id with
  | none =>
      simp only [Engine.log, found, shifted.find?_none found]
      exact shifted
  | some entry =>
      obtain ⟨handle, txn⟩ := entry
      apply shifted.moved (.log (id + n) row) (.log id row)
      all_goals simp only [after, Engine.log, found, shifted.find?_some found]
      case last => exact shifted.last
      case counters => exact shifted.counters
      case roster => exact shifted.roster.put (Roster.find?_eq_some.mp found).2 (txn.append row)
      case books => exact shifted.books

theorem evict (shifted : Shifted n base old new) (id : TxnId) :
    Shifted n base (old.evict (id + n)) (new.evict id) := by
  cases found : new.roster.find? id with
  | none =>
      rw [evict_absent found, evict_absent (shifted.find?_none found)]
      exact shifted
  | some entry =>
      obtain ⟨handle, txn⟩ := entry
      have present := (Roster.find?_eq_some.mp found).2
      have positive : 0 < id :=
        (shifted.orderly_new.bounds_of_live (Roster.mem_live_of_find? found)).1
      apply shifted.moved (.evict (id + n)) (.evict id)
      all_goals simp only [after, evict_found found, evict_found (shifted.find?_some found)]
      case last => exact shifted.last
      case counters =>
          simp only [Transaction.isCommitted_shift, shifted.counters, Counters.add_countEnd]
      case roster => exact (shifted.roster.put present { txn with status := .terminated }).remove id
      case books => exact Discipline.CommutesWithShift.leave shifted.books positive

theorem batch (shifted : Shifted n base old new) (verdict : Verdict) (id : TxnId) (action : Action)
    (objects : List ObjectId) :
    (accessFrom (verdict.shift n) old (id + n) action objects).1 =
        (accessFrom verdict new id action objects).1.shift n ∧
      Shifted n base (accessFrom (verdict.shift n) old (id + n) action objects).2
        (accessFrom verdict new id action objects).2 := by
  induction objects generalizing verdict old new with
  | nil => exact ⟨rfl, shifted⟩
  | cons object rest ih =>
      obtain ⟨answer, next⟩ := shifted.access object id action
      simp only [accessFrom, answer, Verdict.isAllowed_shift]
      split
      · exact ih next _
      · exact ⟨rfl, next⟩

theorem shutdown (shifted : Shifted n base old new) : Shifted n base old.shutdown new.shutdown := by
  rw [Engine.shutdown, Engine.shutdown, shifted.roster.ids]
  generalize new.roster.ids = ids
  induction ids generalizing old new with
  | nil => exact shifted
  | cons id rest ih => exact ih (shifted.evict id)

theorem step (shifted : Shifted n base old new) (call : Call) :
    (old.step (call.shift n)).1 = (new.step call).1.shift n base ∧
      Shifted n base (old.step (call.shift n)).2 (new.step call).2 := by
  cases call with
  | begin =>
      obtain ⟨answer, next⟩ := shifted.begin
      exact ⟨congrArg (Answer.began ∘ .ok) answer, next⟩
  | access object id action =>
      obtain ⟨answer, next⟩ := shifted.access object id action
      exact ⟨congrArg Answer.judged answer, next⟩
  | accessAll objects id action =>
      obtain ⟨answer, next⟩ := shifted.batch (.allowed .nothingAsked) id action objects
      exact ⟨congrArg Answer.judged answer, next⟩
  | finish id commit =>
      obtain ⟨answer, next⟩ := shifted.finish id commit
      exact ⟨congrArg Answer.ended answer, next⟩
  | log id row => exact ⟨rfl, shifted.log id row⟩
  | logged id =>
      refine ⟨?_, shifted⟩
      simp only [Engine.step, Call.shift, Engine.logged, shifted.roster.get?]
      cases new.roster.get? id <;> rfl
  | look id =>
      refine ⟨?_, shifted⟩
      simp only [Engine.step, Call.shift, Engine.status?, Engine.timestamp?, shifted.roster.get?]
      cases new.roster.get? id <;> rfl
  | active => exact ⟨congrArg Answer.ids shifted.roster.ids, shifted⟩
  | counters => exact ⟨congrArg Answer.counted shifted.counters, shifted⟩
  | shutdown => exact ⟨rfl, shifted.shutdown⟩

end Shifted

end Engine

namespace Running

variable {n : Nat} {base : Counters} {old new : Running}

/-- The simulation relation between running engines of the same discipline. -/
def Shifted (n : Nat) (base : Counters) : Running → Running → Prop
  | lock old, lock new => old.Shifted n base new
  | timestamp old, timestamp new => old.Shifted n base new
  | validation old, validation new => old.Shifted n base new
  | _, _ => False

theorem Shifted.algorithm_eq (shifted : Shifted n base old new) : old.algorithm = new.algorithm := by
  cases old <;> cases new <;> first | rfl | exact shifted.elim

theorem Shifted.step (shifted : Shifted n base old new) (call : Call) :
    (old.ask fun engine => (engine.step (call.shift n)).1) =
        (new.ask fun engine => (engine.step call).1).shift n base ∧
      Shifted n base (old.change fun engine => (engine.step (call.shift n)).2)
        (new.change fun engine => (engine.step call).2) := by
  cases old <;> cases new <;> first | exact Engine.Shifted.step shifted call | exact shifted.elim

/-- A running engine without live transactions is related to a fresh one of its algorithm. -/
theorem shifted_of_nobody {running : Running} {asked : List Access}
    (accounted : running.Holds (Engine.Accounted asked))
    (nobody : (running.ask fun engine => engine.roster.ids) = []) (recovery : Option RecoveryLog) :
    Shifted running.last (running.ask fun engine => engine.counters) running
      (fresh recovery running.algorithm) := by
  have gone {roster : Roster} (none : roster.ids = []) (id : TxnId) : id ∉ roster.live := by
    rw [← Roster.mem_ids, none]
    exact List.not_mem_nil
  cases running with
  | lock engine =>
      obtain ⟨past, sound, _⟩ := accounted
      exact .of_nobody sound.chronicle.orderly (gone nobody)
        (Locking.shifted_of_nobody sound (gone nobody) recovery)
  | timestamp engine =>
      obtain ⟨past, sound, _⟩ := accounted
      exact .of_nobody sound.chronicle.orderly (gone nobody) (Watermarks.shifted_of_nobody sound)
  | validation engine =>
      obtain ⟨past, sound, _⟩ := accounted
      exact .of_nobody sound.chronicle.orderly (gone nobody) (Ledger.shifted_of_nobody sound)

end Running

namespace Controller

variable {n : Nat} {base : Counters} {old new controller : Controller} {asked : List Access}

theorem started_step (controller : Controller) (call : Isolation.Call) :
    (controller.step (.call call)).2.started = match call with
      | .shutdown => false
      | _ => controller.started := by
  cases started : controller.started <;> cases call <;>
    simp [step, begin, access, accessAll, finish, log, answered, shutdown, started]

/-- The answers of a controller that is not started. Calls that would change the engine are refused,
all others are answered by the engine. -/
theorem step_answer_idle (idle : controller.started = false) (call : Isolation.Call) :
    (controller.step (.call call)).1 = match call with
      | .begin => .began (.error .notStarted)
      | .access _ _ _ | .accessAll _ _ _ => .judged (.refused .notStarted)
      | .finish _ _ => .ended (.error .notStarted)
      | _ => controller.running.ask fun engine => (engine.step call).1 := by
  cases call with
  | log id row | shutdown => cases controller.running <;> rfl
  | logged id | look id | active | counters =>
      simp only [step, logged, status?, timestamp?, active, counters]
      cases controller.running <;> rfl
  | _ => simp only [step, begin, access, accessAll, finish, answered, idle, Bool.false_eq_true, if_false]

/-- The simulation relation between controllers. -/
structure Shifted (n : Nat) (base : Counters) (old new : Controller) : Prop where
  running : old.running.Shifted n base new.running
  started : old.started = new.started

theorem Shifted.answer (shifted : Shifted n base old new) (call : Isolation.Call) :
    (old.step (.call (call.shift n))).1 = (new.step (.call call)).1.shift n base := by
  have answer := (shifted.running.step call).1
  cases started : new.started with
  | true => rw [step_answer (shifted.started.trans started), step_answer started, answer]
  | false =>
      rw [step_answer_idle (shifted.started.trans started), step_answer_idle started]
      cases call <;> first | exact answer | rfl

theorem Shifted.next (shifted : Shifted n base old new) (call : Isolation.Call) :
    Shifted n base (old.step (.call (call.shift n))).2 (new.step (.call call)).2 where
  running := by
    have next := (shifted.running.step call).2
    cases started : new.started with
    | true => rwa [step_running (shifted.started.trans started), step_running started]
    | false =>
        rcases step_idle started call with same | rfl
        · rcases step_idle (shifted.started.trans started) (call.shift n) with same_old | down
          · rw [same, same_old]
            exact shifted.running
          · cases call <;> first | exact next | contradiction
        · exact next
  started := by
    rw [started_step, started_step, shifted.started]
    cases call <;> rfl

theorem Shifted.step (shifted : Shifted n base old new) {call : Controller.Call}
    (kept : call.keeps new.algorithm = true) :
    (old.step (call.shift n)).1 = (new.step call).1.shift n base ∧
      Shifted n base (old.step (call.shift n)).2 (new.step call).2 := by
  cases call with
  | start => exact ⟨rfl, shifted.running, rfl⟩
  | switchTo target =>
      have same : new.algorithm = target := of_decide_eq_true kept
      have same_old : old.algorithm = target := shifted.running.algorithm_eq.trans same
      refine ⟨rfl, ?_⟩
      simp only [Controller.step, Call.shift, switchTo, same, same_old, if_true]
      exact shifted
  | call request => exact ⟨shifted.answer request, shifted.next request⟩

theorem Shifted.run (shifted : Shifted n base old new) (calls : List Controller.Call)
    (kept : ∀ call ∈ calls, call.keeps new.algorithm = true) :
    (old.run (calls.map (Call.shift n))).1 = (new.run calls).1.map (Answer.shift n base) := by
  induction calls generalizing old new with
  | nil => rfl
  | cons call rest ih =>
      obtain ⟨first, later⟩ := List.forall_mem_cons.mp kept
      rw [← algorithm_of_keeps first] at later
      obtain ⟨answer, next⟩ := shifted.step first
      exact congrArg₂ List.cons answer (ih next later)

/-- A shutdown leaves no transaction live. -/
theorem Accounted.active_shutdown (accounted : controller.Accounted asked) :
    controller.shutdown.active = [] := by
  refine List.eq_nil_iff_forall_not_mem.mpr fun id live => ?_
  rcases (mem_active_of_step accounted (.call .shutdown)).mp live with ⟨_, spared⟩ | ⟨begins, _⟩
  · contradiction
  · cases begins

end Controller

/-- Restart equivalence, for all runs before and after the restart. A controller that has been shut
down and started answers as a new controller of its algorithm, with all numbers shifted by the
number of transactions begun in its engine and with its counters added to their values at the
restart. -/
theorem restart_like_new (algorithm : Algorithm) (recovery recovery' : Option RecoveryLog)
    (before after : List Controller.Call) :
    let start := Controller.ofAlgorithm algorithm recovery
    let used := (start.run before).2
    let restarted := used.shutdown.start
    let new := (Controller.ofAlgorithm used.algorithm recovery').start
    let begun := start.begun 0 before
    (∀ call ∈ after, call.keeps used.algorithm = true) →
    (restarted.run (after.map (Controller.Call.shift begun))).1 =
      (new.run after).1.map (Answer.shift begun restarted.counters) := by
  intro start used restarted new begun kept
  have accounted : used.Accounted _ :=
    (Controller.ofAlgorithm_accounted algorithm recovery).run before
  have quiet := accounted.step (.call .shutdown)
  have last : used.shutdown.running.last = begun := by
    have fresh : start.running.last = 0 := by cases algorithm <;> rfl
    have same : used.shutdown.running.last = used.running.last := used.last_step (.call .shutdown)
    rw [same, Controller.last_run start before, fresh]
  have kind : used.shutdown.algorithm = used.algorithm := used.running.algorithm_change _
  have running := Running.shifted_of_nobody quiet.engine accounted.active_shutdown recovery'
  change Running.Shifted used.shutdown.running.last _ used.shutdown.running
    (Running.fresh recovery' used.shutdown.algorithm) at running
  rw [last, kind] at running
  have shifted : Controller.Shifted begun restarted.counters restarted new := ⟨running, rfl⟩
  refine shifted.run after fun call member => ?_
  have kind_new : new.algorithm = used.algorithm := Running.algorithm_fresh recovery' used.algorithm
  rw [kind_new]
  exact kept call member

/-- Marks raised before the restart refuse no transaction begun after it, and a late write after the
restart is reported with shifted numbers. -/
theorem restart_like_new_late :
    let before : List Controller.Call := [.start, .call .begin, .call .begin,
      .call (.access "x" 2 .write), .call (.finish 1 true)]
    let after : List Controller.Call := [.call .begin, .call .begin, .call (.access "x" 2 .read),
      .call (.access "x" 1 .write), .call (.finish 1 true), .call .active]
    let used := ((Controller.ofAlgorithm .timestamp none).run before).2
    (∀ call ∈ after, call.keeps used.algorithm = true) ∧
    (Controller.ofAlgorithm .timestamp none).begun 0 before = 2 ∧
    (used.shutdown.start.run (after.map (Controller.Call.shift 2))).1 =
      [.began (.ok 3), .began (.ok 4), .judged (.allowed (.inOrder .read 4)),
        .judged (.refused (.late (.writeAfterRead 3 4))), .ended (.ok false), .ids [4]] := by
  intro before after used
  have kept : ∀ call ∈ after, call.keeps used.algorithm = true := by decide
  exact ⟨kept, rfl, restart_like_new .timestamp none none before after kept⟩

end Isolation
