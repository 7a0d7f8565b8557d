import Isolation.Proofs.Controller
import Isolation.Proofs.Locking
import Isolation.Proofs.Text.Words
import Isolation.Shell.Session

/-!
Replies consist of one line each, except for the help text. The words of a request contain no
blanks, and all other parts of a reply contain no blanks except spaces.
-/

namespace Isolation

namespace Text

/-- All blanks of the text are spaces. -/
def OneLine (text : String) : Prop :=
  ∀ c ∈ text.toList, isBlank c = true → c = ' '

/-- Decidability by a bounded quantifier over the characters of the text. -/
instance (text : String) : Decidable (OneLine text) :=
  List.decidableBAll (fun c => isBlank c = true → c = ' ') text.toList

theorem OneLine.of_blankless {text : String} (blankless : ∀ c ∈ text.toList, isBlank c = false) :
    OneLine text := fun c member blank => by
  rw [blankless c member] at blank
  contradiction

theorem oneLine_append {first second : String} :
    OneLine (first ++ second) ↔ OneLine first ∧ OneLine second := by
  simp only [OneLine, String.toList_append, List.forall_mem_append]

theorem oneLine_number (number : Nat) : OneLine (toString number) :=
  .of_blankless fun c member => isBlank_of_isDigit
    (Nat.isDigit_of_mem_toDigits (by decide) (Nat.le_refl 10) (by simpa using member))

theorem oneLine_intercalate {separator : String} {parts : List String} (fits : OneLine separator)
    (all : ∀ part ∈ parts, OneLine part) : OneLine (separator.intercalate parts) := by
  intro c member
  rw [String.toList_intercalate] at member
  induction parts with
  | nil => cases member
  | cons first rest ih =>
      obtain ⟨here, later⟩ := List.forall_mem_cons.mp all
      cases rest with
      | nil =>
          rw [List.map_singleton, List.intercalate_singleton] at member
          exact here c member
      | cons second rest =>
          rw [List.map_cons, List.map_cons, List.intercalate_cons_cons, List.mem_append,
            List.mem_append] at member
          rcases member with (there | between) | after
          · exact here c there
          · exact fits c between
          · exact ih later after

end Text

open Text

theorem Action.oneLine_name (action : Action) : OneLine (toString action.name) := by
  cases action <;> decide

theorem LockMode.oneLine_name (mode : LockMode) : OneLine (toString mode.name) := by
  cases mode <;> decide

theorem Status.oneLine_name (status : Status) : OneLine (toString status.name) := by
  cases status <;> decide

theorem oneLine_listed (ids : List TxnId) : OneLine (toString (listed ids)) :=
  oneLine_intercalate (by decide) fun part member => by
    obtain ⟨id, _, rfl⟩ := List.mem_map.mp member
    exact oneLine_number id

theorem Grant.oneLine_reason (grant : Grant) : OneLine grant.reason := by
  unfold Grant.reason
  cases grant with
  | locked mode =>
      simp only [oneLine_append, mode.oneLine_name, true_and]
      decide
  | inOrder action timestamp =>
      simp only [oneLine_append, action.oneLine_name, oneLine_number, and_true, true_and]
      decide
  | recorded action =>
      simp only [oneLine_append, action.oneLine_name, true_and]
      decide
  | upgraded | nothingAsked => decide

theorem Violation.oneLine_message (violation : Violation) : OneLine violation.message := by
  unfold Violation.message
  cases violation <;> simp only [oneLine_append, oneLine_number, and_true] <;> decide

theorem Refusal.oneLine_reason {refusal : Refusal}
    (named : ∀ object blockers, refusal = .held object blockers → OneLine object) :
    OneLine refusal.reason := by
  unfold Refusal.reason
  cases refusal with
  | wounded victims =>
      simp only [oneLine_append, oneLine_listed, and_true]
      decide
  | held object blockers =>
      have fits : OneLine (toString object) := named object blockers rfl
      simp only [oneLine_append, oneLine_listed, fits, and_true, true_and]
      decide
  | late violation => exact violation.oneLine_message
  | notStarted | unknown | aborted | inactive | unstamped => decide

theorem Verdict.oneLine_reason {verdict : Verdict}
    (named : ∀ object blockers, verdict = .refused (.held object blockers) → OneLine object) :
    OneLine verdict.reason := by
  cases verdict with
  | allowed grant => exact grant.oneLine_reason
  | refused refusal =>
      exact refusal.oneLine_reason fun object blockers same => named object blockers (same ▸ rfl)

/-- Refusals name no object other than the requested one. -/
class Discipline.NamesAskedObject (β : Type) [Discipline β] : Prop where
  judge_held : ∀ {scene : Scene β} {handle : Handle} {txn : Transaction} {object held : ObjectId}
    {action : Action} {blockers : List TxnId},
    (Discipline.judge scene handle txn object action).1 = .refused (.held held blockers) →
      held = object

theorem Locking.eq_of_held {txn : Transaction} {object held : ObjectId} {mode : LockMode}
    {outcome : LockOutcome} {blockers : List TxnId}
    (refused : verdict txn object mode outcome = .refused (.held held blockers)) : held = object := by
  cases outcome with
  | wait others => exact (Refusal.held.inj (Verdict.refused.inj refused)).1.symm
  | requesterInactive =>
      exact absurd (Verdict.refused.inj refused) (refusal_ne_held txn held blockers)
  | granted | upgraded => contradiction
  | wounded victims => cases refused

instance : Discipline.NamesAskedObject Locking where
  judge_held {scene handle txn object held action blockers} refused := by
    change (Locking.judge scene handle txn object action).1 = _ at refused
    unfold Locking.judge at refused
    split at refused
    · exact Locking.eq_of_held refused
    · exact absurd (Verdict.refused.inj refused) (Locking.refusal_ne_held txn held blockers)

instance : Discipline.NamesAskedObject Watermarks where
  judge_held {scene handle txn object held action blockers} refused := by
    change (Watermarks.judge scene handle txn object action).1 = _ at refused
    unfold Watermarks.judge at refused
    repeat' split at refused
    all_goals simp at refused

instance : Discipline.NamesAskedObject Ledger where
  judge_held {scene handle txn object held action blockers} refused := by
    change (Ledger.judge scene handle txn object action).1 = _ at refused
    unfold Ledger.judge at refused
    split at refused <;> simp at refused

theorem Engine.access_held {β : Type} [Discipline β] [Discipline.NamesAskedObject β] {engine : Engine β}
    {object held : ObjectId} {id : TxnId} {action : Action} {blockers : List TxnId}
    (refused : (engine.access object id action).1 = .refused (.held held blockers)) :
    held = object := by
  cases found : engine.roster.find? id with
  | none =>
      rw [(access_absent found object action).1] at refused
      simp at refused
  | some entry =>
      rw [(access_found found object action).1] at refused
      exact Discipline.NamesAskedObject.judge_held refused

theorem Engine.finish_error {β : Type} [Discipline β] {engine : Engine β} {id : TxnId} {commit : Bool}
    {fault : Error} (failed : (engine.finish id commit).1 = .error fault) :
    fault = .unknownTransaction id ∨ ∃ cause, fault = .invalidTransition cause := by
  cases found : engine.roster.find? id with
  | none =>
      rw [finish_absent found] at failed
      exact .inl (Except.error.inj failed).symm
  | some entry =>
      rw [finish_answer found commit] at failed
      cases outcome : (conclude engine.books entry.2 commit).outcome with
      | error cause =>
          rw [outcome] at failed
          exact .inr ⟨cause, (Except.error.inj failed).symm⟩
      | ok committed =>
          rw [outcome] at failed
          contradiction

namespace Controller

variable {controller : Controller} {id : TxnId}

theorem access_held {object held : ObjectId} {action : Action} {blockers : List TxnId}
    (refused : (controller.access object id action).1 = .refused (.held held blockers)) :
    held = object := by
  simp only [access, Running.act_eq] at refused
  split at refused
  · cases running : controller.running <;> rw [running] at refused <;>
      exact Engine.access_held refused
  · simp at refused

theorem begin_error {fault : Error} (failed : controller.begin.1 = .error fault) :
    fault = .notStarted := by
  simp only [begin, Running.act_eq] at failed
  split at failed
  · contradiction
  · exact (Except.error.inj failed).symm

theorem finish_error {commit : Bool} {fault : Error}
    (failed : (controller.finish id commit).1 = .error fault) :
    fault = .notStarted ∨ fault = .unknownTransaction id ∨
      ∃ cause, fault = .invalidTransition cause := by
  simp only [finish, Running.act_eq] at failed
  split at failed
  · cases running : controller.running <;> rw [running] at failed <;>
      exact .inr (Engine.finish_error failed)
  · exact .inl (Except.error.inj failed).symm

end Controller

theorem TransitionError.oneLine_message (cause : TransitionError) : OneLine cause.message := by
  unfold TransitionError.message
  cases cause <;>
    simp only [oneLine_append, oneLine_number, Status.oneLine_name, and_true] <;> decide

/-- The error messages of `begin` and `finish`. -/
theorem Error.oneLine_message {fault : Error} (id : TxnId)
    (told : fault = .notStarted ∨ fault = .unknownTransaction id ∨
      ∃ cause, fault = .invalidTransition cause) :
    OneLine fault.message := by
  unfold Error.message
  obtain rfl | rfl | ⟨cause, rfl⟩ := told
  · decide
  · simp only [oneLine_append, oneLine_number, and_true]
    decide
  · have fits : OneLine (toString cause.message) := cause.oneLine_message
    simp only [oneLine_append, fits, and_true]
    decide

namespace Shell

/-- A reply other than the help text is one line if its reason is. -/
theorem Reply.oneLine_text {reply : Reply} (other : reply ≠ .help)
    (reasoned : ∀ allowed reason, reply = .answered allowed reason → OneLine reason) :
    OneLine reply.text := by
  unfold Reply.text
  cases reply with
  | answered allowed reason =>
      have fits : OneLine (toString reason) := reasoned allowed reason rfl
      cases allowed <;> simp only [oneLine_append, fits, and_true] <;> decide
  | ended id committed =>
      cases committed <;> simp only [oneLine_append, oneLine_number, and_true] <;> decide
  | seen id status =>
      cases status with
      | none =>
          simp only [oneLine_append, oneLine_number, true_and]
          decide
      | some status =>
          simp only [oneLine_append, oneLine_number, status.oneLine_name, and_true, true_and]
          decide
  | began id =>
      simp only [oneLine_append, oneLine_number, and_true]
      decide
  | counted counters =>
      simp only [oneLine_append, oneLine_number, and_true]
      decide
  | help => exact absurd rfl other
  | farewell => decide

theorem oneLine_errorText {message : String} (fits : OneLine message) : OneLine
    (errorText message) := by
  have fits : OneLine (toString message) := fits
  simp only [errorText, oneLine_append, fits, and_true]
  decide

/-- The part of the input that the message of an error contains. -/
def RequestError.repeated : RequestError → String
  | .arguments keyword _ _ => keyword
  | .transactionId token => token
  | .command keyword => keyword

theorem RequestError.oneLine_message {fault : RequestError} (fits : OneLine fault.repeated) :
    OneLine fault.message := by
  unfold RequestError.message
  cases fault with
  | arguments keyword expected given =>
      have fits : OneLine (toString keyword) := fits
      simp only [oneLine_append, oneLine_number, fits, true_and, and_true]
      decide
  | transactionId text | command text =>
      have fits : OneLine (toString text) := fits
      simp only [oneLine_append, fits, and_true]
      decide

/-- The object or the repeated input is one line. -/
def Legible : Except RequestError Request → Prop
  | .ok (.access _ _ object) => OneLine object
  | .ok _ => True
  | .error fault => OneLine fault.repeated

namespace Request

variable {keyword : String} {arguments : List (List Char)} {spoken : Except RequestError Request}

theorem oneLine_of_blankless {word : List Char} (blankless : ∀ c ∈ word, isBlank c = false) :
    OneLine (String.ofList word) :=
  .of_blankless fun c member => blankless c (by simpa using member)

theorem oneLine_upper {word : List Char} (blankless : ∀ c ∈ word, isBlank c = false) :
    OneLine (upper word) := by
  refine oneLine_of_blankless fun c member => ?_
  obtain ⟨lower, there, rfl⟩ := List.mem_map.mp member
  exact isBlank_toUpper (blankless lower there)

/-- Reading a number yields a request without a new name, or repeats a token without blanks. -/
theorem legible_readId {token : List Char} (blankless : ∀ c ∈ token, isBlank c = false)
    {request : TxnId → Request} (legible : ∀ id, Legible (.ok (request id))) :
    Legible ((readId token).map request) := by
  unfold readId
  split
  · exact legible _
  · exact oneLine_of_blankless blankless

theorem legible_withNone (fits : OneLine keyword) {request : Request}
    (legible : Legible (.ok request)) :
    Legible (withNone keyword request arguments) := by
  unfold withNone
  split
  · exact legible
  · exact fits

theorem legible_withId (fits : OneLine keyword)
    (blankless : ∀ word ∈ arguments, ∀ c ∈ word, isBlank c = false) {request : TxnId → Request}
    (legible : ∀ id, Legible (.ok (request id))) : Legible (withId keyword request arguments) := by
  unfold withId
  split
  · exact legible_readId (blankless _ List.mem_cons_self) legible
  · exact fits

theorem legible_withObject (fits : OneLine keyword)
    (blankless : ∀ word ∈ arguments, ∀ c ∈ word, isBlank c = false) (action : Action) :
    Legible (withObject keyword (.access action) arguments) := by
  unfold withObject
  split
  · exact legible_readId (blankless _ List.mem_cons_self) fun id =>
      oneLine_of_blankless (blankless _ (by simp))
  · exact fits

theorem legible_ofWords (fits : OneLine keyword)
    (blankless : ∀ word ∈ arguments, ∀ c ∈ word, isBlank c = false) :
    Legible (ofWords keyword arguments) := by
  unfold ofWords
  split
  case h_1 => exact legible_withNone fits trivial
  case h_2 => exact legible_withObject fits blankless .read
  case h_3 => exact legible_withObject fits blankless .write
  case h_4 => exact legible_withId fits blankless fun _ => trivial
  case h_5 => exact legible_withId fits blankless fun _ => trivial
  case h_6 => exact legible_withId fits blankless fun _ => trivial
  case h_7 => exact legible_withNone fits trivial
  case h_8 | h_9 | h_10 => trivial
  case h_11 => exact fits

end Request

end Shell

end Isolation
