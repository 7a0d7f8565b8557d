import Mathlib.Data.List.Sort
import Isolation.Proofs.Standing

/-!
Translation of transaction numbers. Calls, answers and engine states depend on numbers, timestamps
and handles only through their order, so a translation of all of them by a constant is compatible
with every operation.
-/

namespace Isolation

section

variable (n : Nat)

def Transaction.shift (txn : Transaction) : Transaction :=
  { txn with id := txn.id + n, timestamp := txn.timestamp.map (· + n) }

def Violation.shift : Violation → Violation
  | .readTooLate timestamp written => .readTooLate (timestamp + n) (written + n)
  | .writeAfterRead timestamp read => .writeAfterRead (timestamp + n) (read + n)
  | .writeTooLate timestamp written => .writeTooLate (timestamp + n) (written + n)

def Grant.shift : Grant → Grant
  | .inOrder action timestamp => .inOrder action (timestamp + n)
  | grant => grant

def Refusal.shift : Refusal → Refusal
  | .wounded victims => .wounded (victims.map (· + n))
  | .held object blockers => .held object (blockers.map (· + n))
  | .late violation => .late (violation.shift n)
  | refusal => refusal

def Verdict.shift : Verdict → Verdict
  | .allowed grant => .allowed (grant.shift n)
  | .refused refusal => .refused (refusal.shift n)

def TransitionError.shift : TransitionError → TransitionError
  | .illegal id source target => .illegal (id + n) source target
  | .stamped id current => .stamped (id + n) (current + n)

def Error.shift : Error → Error
  | .unknownTransaction id => .unknownTransaction (id + n)
  | .invalidTransition cause => .invalidTransition (cause.shift n)
  | error => error

def Call.shift : Call → Call
  | .access object id action => .access object (id + n) action
  | .accessAll objects id action => .accessAll objects (id + n) action
  | .finish id commit => .finish (id + n) commit
  | .log id row => .log (id + n) row
  | .logged id => .logged (id + n)
  | .look id => .look (id + n)
  | call => call

def Controller.Call.shift : Controller.Call → Controller.Call
  | .call request => .call (request.shift n)
  | other => other

end

instance : Add Counters where
  add first second := {
    begun := first.begun + second.begun
    committed := first.committed + second.committed
    aborted := first.aborted + second.aborted
    refusals := first.refusals + second.refusals
    wounds := first.wounds + second.wounds }

/-- The answer with all numbers translated by `n` and the counters added to `base`. -/
def Answer.shift (n : Nat) (base : Counters) : Answer → Answer
  | .done => .done
  | .began outcome => .began ((outcome.map (· + n)).mapError (Error.shift n))
  | .judged verdict => .judged (verdict.shift n)
  | .ended outcome => .ended (outcome.mapError (Error.shift n))
  | .rows listed => .rows listed
  | .seen status timestamp => .seen status (timestamp.map (· + n))
  | .ids names => .ids (names.map (· + n))
  | .counted counters => .counted (base + counters)

variable {n : Nat}

@[simp] theorem Verdict.isAllowed_shift (verdict : Verdict) :
    (verdict.shift n).isAllowed = verdict.isAllowed := by
  cases verdict <;> rfl

theorem Verdict.length_victims_shift (verdict : Verdict) :
    (verdict.shift n).victims.length = verdict.victims.length := by
  cases verdict with
  | allowed grant => rfl
  | refused refusal =>
      cases refusal with
      | wounded victims => exact List.length_map _
      | _ => rfl

namespace Counters

variable (base counters : Counters)

theorem add_eq : base + counters = {
    begun := base.begun + counters.begun
    committed := base.committed + counters.committed
    aborted := base.aborted + counters.aborted
    refusals := base.refusals + counters.refusals
    wounds := base.wounds + counters.wounds } := rfl

theorem add_countBegin : base + counters.countBegin = (base + counters).countBegin := rfl

theorem add_countEnd (committed : Bool) :
    base + counters.countEnd committed = (base + counters).countEnd committed := by
  cases committed <;> rfl

theorem add_countVerdict (verdict : Verdict) :
    base + counters.countVerdict verdict = (base + counters).countVerdict (verdict.shift n) := by
  simp only [countVerdict, Verdict.isAllowed_shift, Verdict.length_victims_shift]
  split
  · rfl
  · simp only [add_eq, Nat.add_assoc]

end Counters

namespace Transaction

@[simp] theorem isActive_shift (txn : Transaction) : (txn.shift n).isActive = txn.isActive := rfl

@[simp] theorem isAborted_shift (txn : Transaction) : (txn.shift n).isAborted = txn.isAborted := rfl

@[simp] theorem isCommitted_shift (txn : Transaction) :
    (txn.shift n).isCommitted = txn.isCommitted := rfl

theorem forceAbort_shift (txn : Transaction) :
    (txn.shift n).forceAbort = txn.forceAbort.shift n := by
  rw [forceAbort_eq, forceAbort_eq]
  rfl

/-- Translation of a stamped transaction translates its age. -/
theorem age_shift {txn : Transaction} {timestamp : Timestamp}
    (stamped : txn.timestamp = some timestamp) : (txn.shift n).age = txn.age + n := by
  simp [age, shift, stamped]

end Transaction

/-- The transactions of `old` from handle `n` on are those of `new`, translated. -/
def Transactions.Shifted (n : Nat) (old new : Transactions) : Prop :=
  ∀ handle : Handle, old[handle + n]? = new[handle]?.map (Transaction.shift n)

namespace Transactions.Shifted

variable {old new : Transactions}

theorem push (shifted : Shifted n old new) (size : old.size = new.size + n) (txn : Transaction) :
    Shifted n (old.push (txn.shift n)) (new.push txn) := by
  intro handle
  rw [Array.getElem?_push, Array.getElem?_push, size]
  by_cases last : handle = new.size
  · rw [if_pos (by rw [last]), if_pos last, Option.map_some]
  · rw [if_neg (fun same => last (Nat.add_right_cancel same)), if_neg last]
    exact shifted handle

theorem modify (shifted : Shifted n old new) (handle : Handle)
    {change : Transaction → Transaction} (commutes : ∀ txn, change (txn.shift n) = (change txn).shift n) :
    Shifted n (old.modify (handle + n) change) (new.modify handle change) := by
  intro index
  rw [Array.getElem?_modify, Array.getElem?_modify, shifted index]
  by_cases here : handle = index
  · rw [if_pos (by rw [here]), if_pos here, Option.map_map, Option.map_map]
    exact congrArg (Option.map · _) (funext commutes)
  · rw [if_neg (fun same => here (Nat.add_right_cancel same)), if_neg here]

theorem set (shifted : Shifted n old new) {handle : Handle} {txn : Transaction}
    (found : new[handle]? = some txn) (next : Transaction) :
    Shifted n (old.setIfInBounds (handle + n) (next.shift n)) (new.setIfInBounds handle next) := by
  intro index
  rw [Array.getElem?_setIfInBounds, Array.getElem?_setIfInBounds]
  by_cases here : handle = index
  · subst here
    have present : old[handle + n]? = some (txn.shift n) := by rw [shifted, found, Option.map_some]
    rw [if_pos rfl, if_pos rfl, if_pos (Array.getElem?_eq_some_iff.mp present).1,
      if_pos (Array.getElem?_eq_some_iff.mp found).1, Option.map_some]
  · rw [if_neg (fun same => here (Nat.add_right_cancel same)), if_neg here]
    exact shifted index

end Transactions.Shifted

namespace Roster

/-- The live transactions of `old` are those of `new`, with names and handles translated. -/
structure Shifted (n : Nat) (old new : Roster) : Prop where
  made : Transactions.Shifted n old.made new.made
  live : ∀ id : TxnId, old.live[id + n]? = new.live[id]?.map (· + n)
  beyond : ∀ id ∈ old.live, n ≤ id

namespace Shifted

variable {old new : Roster} {id : TxnId}

theorem find? (shifted : Shifted n old new) (id : TxnId) :
    old.find? (id + n) = (new.find? id).map fun entry => (entry.1 + n, entry.2.shift n) := by
  simp only [Roster.find?, shifted.live]
  cases new.live[id]? with
  | none => rfl
  | some handle =>
      simp only [Option.map_some, Option.bind_eq_bind, Option.bind_some, shifted.made handle]
      cases new.made[handle]? <;> rfl

theorem get? (shifted : Shifted n old new) (id : TxnId) :
    old.get? (id + n) = (new.get? id).map (Transaction.shift n) := by
  rw [Roster.get?, Roster.get?, shifted.find?, Option.map_map, Option.map_map]
  rfl

theorem mem_live (shifted : Shifted n old new) (id : TxnId) :
    id + n ∈ old.live ↔ id ∈ new.live := by
  rw [Std.ExtTreeMap.mem_iff_isSome_getElem?, Std.ExtTreeMap.mem_iff_isSome_getElem?,
    shifted.live, Option.isSome_map]

theorem ids (shifted : Shifted n old new) : old.ids = new.ids.map (· + n) := by
  have ascending (roster : Roster) : roster.ids.Pairwise (· < ·) := by
    refine List.Pairwise.imp (fun order => ?_) (Std.ExtTreeMap.ordered_keys (t := roster.live))
    exact compareOfLessAndEq_eq_lt.mp order
  have ascending_shifted : (new.ids.map (· + n)).Pairwise (· < ·) :=
    List.pairwise_map.mpr ((ascending new).imp fun less => Nat.add_lt_add_right less n)
  apply (ascending old).eq_of_mem_iff ascending_shifted
  intro id
  rw [mem_ids, List.mem_map]
  constructor
  · intro live
    obtain ⟨id, rfl⟩ := Nat.exists_eq_add_of_le' (shifted.beyond id live)
    exact ⟨id, mem_ids.mpr ((shifted.mem_live id).mp live), rfl⟩
  · intro given
    obtain ⟨id, live, rfl⟩ := given
    exact (shifted.mem_live id).mpr (mem_ids.mp live)

theorem add (shifted : Shifted n old new) (size : old.made.size = new.made.size + n)
    (txn : Transaction) : Shifted n (old.add (txn.shift n)) (new.add txn) where
  made := shifted.made.push size txn
  live id := by
    simp only [Roster.add, Std.ExtTreeMap.getElem?_insert, Std.LawfulEqCmp.compare_eq_iff_eq, size]
    by_cases own : txn.id = id
    · rw [if_pos (by rw [← own]; rfl), if_pos own, Option.map_some]
    · have apart : (txn.shift n).id ≠ id + n := fun same => own (Nat.add_right_cancel same)
      rw [if_neg apart, if_neg own]
      exact shifted.live id
  beyond id member := by
    rcases Std.ExtTreeMap.mem_insert.mp member with same | before
    · rw [← Std.LawfulEqCmp.compare_eq_iff_eq.mp same]
      exact Nat.le_add_left n txn.id
    · exact shifted.beyond id before

theorem put (shifted : Shifted n old new) {handle : Handle} {txn : Transaction}
    (found : new.made[handle]? = some txn) (next : Transaction) :
    Shifted n (old.put (handle + n) (next.shift n)) (new.put handle next) where
  made := shifted.made.set found next
  live := shifted.live
  beyond := shifted.beyond

theorem remove (shifted : Shifted n old new) (target : TxnId) :
    Shifted n (old.remove (target + n)) (new.remove target) where
  made := shifted.made
  live id := by
    simp only [Roster.remove, Std.ExtTreeMap.getElem?_erase, Std.LawfulEqCmp.compare_eq_iff_eq]
    by_cases own : target = id
    · rw [if_pos (by rw [own]), if_pos own, Option.map_none]
    · rw [if_neg (fun same => own (Nat.add_right_cancel same)), if_neg own]
      exact shifted.live id
  beyond id member := shifted.beyond id (mem_live_remove.mp member).2

end Shifted

end Roster

end Isolation
