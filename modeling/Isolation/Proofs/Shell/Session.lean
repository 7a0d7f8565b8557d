import Isolation.Proofs.Shell.Reply

/-!
Sessions as runs over the lines of the input. A session reads lines up to the first one that exits
or is not valid text, and replies once to each line that is neither blank nor a comment. An input
can be split after a line feed into two consecutive sessions.
-/

namespace Isolation.Shell

open Text

/-- The request of a line or its error, if the line is not silent. -/
def spoken? (text : List Char) : Option (Except RequestError Request) :=
  match Request.ofLine text with
  | .ok request => request.map .ok
  | .error fault => some (.error fault)

def exits (text : List Char) : Bool :=
  match spoken? text with
  | some (.ok .exit) => true
  | _ => false

/-- The session ends with a line that is not valid text and with a line that exits. -/
def stops : Option (List Char) → Bool
  | none => true
  | some text => exits text

/-- The lines that a session reads. -/
def reached : List (Option (List Char)) → List (Option (List Char))
  | [] => []
  | line :: rest => line :: if stops line then [] else reached rest

/-- The step of the controller for one line. Errors of the parser leave it unchanged. -/
def respond (controller : Controller) :
    Except RequestError Request → Except String Reply × Controller
  | .ok request => (execute controller request).map (·.mapError Error.message) id
  | .error fault => (.error fault.message, controller)

def written : Except String Reply → String
  | .ok reply => reply.text
  | .error message => errorText message

/-! ### Lines -/

theorem linesFrom_append {first : List UInt8} (whole : first.getLast? = some 10)
    (line second : List UInt8) :
    linesFrom line (first ++ second) = linesFrom line first ++ linesFrom [] second := by
  induction first generalizing line with
  | nil => contradiction
  | cons byte rest ih =>
      cases rest with
      | nil =>
          have feed : byte = 10 := by simpa using whole
          simp [linesFrom, feed]
      | cons next rest =>
          have whole : (next :: rest).getLast? = some 10 := by simpa using whole
          rw [List.cons_append, linesFrom, linesFrom]
          split
          · rw [ih whole, List.cons_append]
          · exact ih whole _

/-- The silent lines are the blank lines and the comments. -/
theorem spoken?_eq_none (text : List Char) :
    spoken? text = none ↔ trim text = [] ∨ (trim text).head? = some '#' := by
  have first := head?_words text
  rw [← head?_trim] at first
  unfold spoken? Request.ofLine
  cases split : words text with
  | nil =>
      rw [split, List.head?_nil, Option.map_none, eq_comm, Option.map_eq_none_iff,
        List.head?_eq_none_iff] at first
      simp [first]
  | cons word arguments =>
      rw [split, List.head?_cons, Option.map_some, eq_comm, Option.map_eq_some_iff] at first
      obtain ⟨c, trimmed, begins⟩ := first
      have visible : trim text ≠ [] := fun nothing => by simp [nothing] at trimmed
      simp only [trimmed, ← begins, visible, false_or]
      by_cases comment : some c = some '#'
      · simp [comment]
      · simp only [comment, if_false, iff_false]
        cases Request.ofWords (Request.upper word) arguments <;> exact Option.some_ne_none _

/-! ### Requests and their answers -/

theorem handleLine_silent (controller : Controller) {text : List Char}
    (silent : spoken? text = none) : handleLine controller text = ({}, controller) := by
  unfold handleLine
  unfold spoken? at silent
  cases asked : Request.ofLine text with
  | error fault => simp [asked] at silent
  | ok request =>
      cases request with
      | none => rfl
      | some request => simp [asked] at silent

theorem handleLine_spoken (controller : Controller) {text : List Char}
    {spoken : Except RequestError Request} (asked : spoken? text = some spoken) :
    handleLine controller text =
      ({ reply := some (written (respond controller spoken).1)
         failed := !(respond controller spoken).1.isOk
         exits := exits text }, (respond controller spoken).2) := by
  rw [exits, asked]
  unfold handleLine
  unfold spoken? at asked
  cases parsed : Request.ofLine text with
  | error fault =>
      rw [parsed, Option.some.injEq] at asked
      subst asked
      rfl
  | ok request =>
      cases request with
      | none => simp [parsed] at asked
      | some request =>
          simp only [parsed, Option.map_some, Option.some.injEq] at asked
          subst asked
          -- An exit never fails, so a failed request is not an exit.
          cases request with
          | begin => cases began : controller.begin.1 <;> simp [respond, execute, began] <;> rfl
          | finish id commit =>
              cases ended : (controller.finish id commit).1 <;>
                simp [respond, execute, ended] <;> rfl
          | access _ _ _ | status _ | counters | help | exit => rfl

/-- The result of a session as a function of the lines that it reads. -/
theorem replyTo_eq (controller : Controller) (failed : Bool) (input : List (List UInt8)) :
    replyTo controller failed input =
      let come := reached (input.map decode?)
      let answers := (runWith respond controller (come.filterMap (·.bind spoken?))).1
      { replies := answers.map written
        outcome := if none ∈ come then .unreadable else .ended (failed || answers.any (!·.isOk))
        controller := (runWith respond controller (come.filterMap (·.bind spoken?))).2 } := by
  induction input generalizing controller failed with
  | nil => simp [replyTo, reached, runWith]
  | cons line rest ih =>
      cases decoded : decode? line with
      | none => simp [replyTo, decoded, reached, stops, runWith]
      | some text =>
          simp only [replyTo, decoded, List.map_cons, reached, stops]
          cases asked : spoken? text with
          | none =>
              have goes : exits text = false := by rw [exits, asked]
              simp [handleLine_silent controller asked, asked, goes, ih]
          | some spoken =>
              rw [handleLine_spoken controller asked]
              by_cases leaves : exits text = true
              · simp [asked, leaves, runWith]
              · simp [asked, leaves, runWith, ih, Bool.or_assoc]

theorem run_eq (controller : Controller) (input : List UInt8) :
    run controller input =
      let come := reached ((lines input).map decode?)
      let answers := (runWith respond controller (come.filterMap (·.bind spoken?))).1
      { replies := answers.map written
        outcome := if none ∈ come then .unreadable else .ended (answers.any (!·.isOk))
        controller := (runWith respond controller (come.filterMap (·.bind spoken?))).2 } := by
  simp only [run, replyTo_eq, Bool.false_or]

/-- A response is an error only for errors of the parser and for failed calls of `begin` and
`finish`. Refused accesses and rollbacks are not errors. -/
theorem respond_error (controller : Controller) (spoken : Except RequestError Request)
    (message : String) :
    (respond controller spoken).1 = .error message ↔
      match spoken with
      | .error fault => message = fault.message
      | .ok .begin => ∃ fault, controller.begin.1 = .error fault ∧ message = fault.message
      | .ok (.finish id commit) =>
          ∃ fault, (controller.finish id commit).1 = .error fault ∧ message = fault.message
      | .ok _ => False := by
  have failed {α : Type} (outcome : Except Error α) (told : α → Reply) :
      (outcome.map told).mapError Error.message = .error message ↔
        ∃ fault, outcome = .error fault ∧ message = fault.message := by
    cases outcome with
    | error fault =>
        change Except.error fault.message = Except.error message ↔ _
        simp [eq_comm]
    | ok value => exact ⟨nofun, fun ⟨_, absent, _⟩ => nomatch absent⟩
  cases spoken with
  | error fault => simp [respond, eq_comm]
  | ok request =>
      cases request with
      | begin => exact failed controller.begin.1 _
      | finish id commit => exact failed (controller.finish id commit).1 _
      | access _ _ _ | status _ | counters | help | exit => exact ⟨nofun, nofun⟩

theorem legible_of_spoken {text : List Char} {spoken : Except RequestError Request}
    (asked : spoken? text = some spoken) : Legible spoken := by
  unfold spoken? Request.ofLine at asked
  cases split : words text with
  | nil => simp [split] at asked
  | cons word arguments =>
      have blankless : ∀ word ∈ words text, ∀ c ∈ word, isBlank c = false :=
        fun word member => blankless_of_mem_words member
      rw [split, List.forall_mem_cons] at blankless
      have legible := Request.legible_ofWords (Request.oneLine_upper blankless.1) blankless.2
      simp only [split] at asked
      by_cases comment : word.head? = some '#'
      · simp [comment] at asked
      · rw [if_neg comment] at asked
        cases parsed : Request.ofWords (Request.upper word) arguments <;> rw [parsed] at asked legible
        · cases asked
          exact legible
        · cases asked
          exact legible

theorem oneLine_outcome {α : Type} {outcome : Except Error α} {told : α → Reply}
    (fails : ∀ fault, outcome = .error fault → OneLine fault.message)
    (ends : ∀ value, OneLine (told value).text) :
    OneLine (written ((outcome.map told).mapError Error.message)) := by
  cases ended : outcome with
  | error fault => exact oneLine_errorText (fails fault ended)
  | ok value => exact ends value

/-- Every response other than the help text is one line. -/
theorem oneLine_written (controller : Controller) {spoken : Except RequestError Request}
    (legible : Legible spoken) (other : spoken ≠ .ok .help) :
    OneLine (written (respond controller spoken).1) := by
  cases spoken with
  | error fault => exact oneLine_errorText (RequestError.oneLine_message legible)
  | ok request =>
      cases request with
      | begin =>
          exact oneLine_outcome
            (fun fault failed => Error.oneLine_message 0 (.inl (Controller.begin_error failed)))
            fun id => Reply.oneLine_text (by simp) (by simp)
      | finish id commit =>
          exact oneLine_outcome
            (fun fault failed => Error.oneLine_message id (Controller.finish_error failed))
            fun committed => Reply.oneLine_text (by simp) (by simp)
      | access action id object =>
          refine Reply.oneLine_text (by simp) fun allowed reason same => ?_
          cases same
          refine Verdict.oneLine_reason fun held blockers refused => ?_
          rw [Controller.access_held refused]
          exact legible
      | status _ | counters | exit => exact Reply.oneLine_text (by simp) (by simp)
      | help => exact absurd rfl other

theorem reached_stopped {first : List (Option (List Char))}
    (stopped : ∃ line ∈ first, stops line = true)
    (second : List (Option (List Char))) : reached (first ++ second) = reached first := by
  induction first with
  | nil => simp at stopped
  | cons line rest ih =>
      rw [List.cons_append, reached, reached]
      split
      · rfl
      · rename_i goes
        rw [ih (by simpa [goes] using stopped)]

theorem reached_append {first : List (Option (List Char))} (goes : ∀ line ∈ first, stops line = false)
    (second : List (Option (List Char))) : reached (first ++ second) = first ++ reached second := by
  induction first with
  | nil => rfl
  | cons line rest ih =>
      obtain ⟨here, later⟩ := List.forall_mem_cons.mp goes
      rw [List.cons_append, reached, here, if_neg Bool.false_ne_true, ih later, List.cons_append]

theorem Outcome.code_le (outcome : Outcome) : outcome.code ≤ 1 := by
  unfold code
  split <;> decide

theorem lines_append {first : List UInt8} (whole : first.getLast? = some 10) (second : List UInt8) :
    lines (first ++ second) = lines first ++ lines second :=
  linesFrom_append whole [] second

theorem run_append_of_stopped (controller : Controller) {first : List UInt8}
    (whole : first.getLast? = some 10) (second : List UInt8)
    (stopped : ∃ line ∈ (lines first).map decode?, stops line = true) :
    run controller (first ++ second) = run controller first := by
  rw [run_eq, run_eq, lines_append whole, List.map_append, reached_stopped stopped]

/-- A session whose first part contains no line that stops it continues with the second part. -/
theorem run_append (controller : Controller) {first : List UInt8} (whole : first.getLast? = some 10)
    (second : List UInt8) (goes : ∀ line ∈ (lines first).map decode?, stops line = false) :
    let former := run controller first
    let latter := run former.controller second
    (run controller (first ++ second)).replies = former.replies ++ latter.replies ∧
      (run controller (first ++ second)).controller = latter.controller ∧
      (run controller (first ++ second)).outcome.code = max former.outcome.code latter.outcome.code := by
  have text : none ∉ (lines first).map decode? := fun unread =>
    Bool.false_ne_true (goes none unread).symm
  have alone : reached ((lines first).map decode?) = (lines first).map decode? := by
    simpa [reached] using reached_append goes []
  intro former latter
  simp only [former, latter, run_eq, lines_append whole, List.map_append, reached_append goes, alone,
    List.filterMap_append, runWith_append, runWith_answers_append, true_and, List.mem_append, text,
    false_or, if_false, List.any_append]
  split
  · exact (Nat.max_eq_right (Outcome.code_le _)).symm
  · cases List.any _ _ <;> cases List.any _ _ <;> rfl

/-- The specification of sessions, for every controller and every input. The controller after a
session is the one after a run over the requests of the lines that it reads. The output contains one
reply for each line that is neither blank nor a comment, the help text for help requests and one
line otherwise. The session fails if a line is not valid text, cannot be parsed, or contains a
failed `begin` or `finish`. If the input is split after a line feed and no line of the first part
exits, it is equivalent to the sessions of its two parts in sequence, provided that all lines of the
first part are valid text; otherwise to that of the first part alone. -/
theorem session_in_step (controller : Controller) (input : List UInt8) :
    let come := reached ((lines input).map decode?)
    let spoken := come.filterMap (·.bind spoken?)
    let answers := (runWith respond controller spoken).1
    let session := run controller input
    session.controller = (runWith respond controller spoken).2 ∧
    session.output = String.join (answers.map (written · ++ "
")) ∧
    answers.length = spoken.length ∧
    (∀ pair ∈ spoken.zip answers,
      (pair.1 = .ok .help → written pair.2 = helpText) ∧
      (pair.1 ≠ .ok .help → OneLine (written pair.2))) ∧
    session.outcome = (if none ∈ come then .unreadable else .ended (answers.any (!·.isOk))) ∧
    (∀ text, spoken? text = none ↔ trim text = [] ∨ (trim text).head? = some '#') ∧
    (∀ state asked message, (respond state asked).1 = .error message ↔
      match asked with
      | .error fault => message = fault.message
      | .ok .begin => ∃ fault, state.begin.1 = .error fault ∧ message = fault.message
      | .ok (.finish id commit) =>
          ∃ fault, (state.finish id commit).1 = .error fault ∧ message = fault.message
      | .ok _ => False) ∧
    ∀ first second, input = first ++ second → first.getLast? = some 10 →
      (∀ line ∈ (lines first).map decode?, line.any exits = false) →
      let former := run controller first
      let latter := run former.controller second
      if none ∈ (lines first).map decode? then session = former
      else
        session.controller = latter.controller ∧
        session.output = former.output ++ latter.output ∧
        session.outcome.code = max former.outcome.code latter.outcome.code := by
  intro come spoken answers session
  have told : session = _ := run_eq controller input
  refine ⟨congrArg Transcript.controller told, ?_, length_runWith _ _ _, fun pair member => ?_,
    congrArg Transcript.outcome told, spoken?_eq_none, respond_error, ?_⟩
  · rw [told]
    simp only [Transcript.output, List.map_map]
    rfl
  · obtain ⟨state, answered⟩ := exists_answered member
    rw [answered]
    refine ⟨fun help => by rw [help]; rfl, fun other => oneLine_written state ?_ other⟩
    obtain ⟨line, _, asked⟩ := List.mem_filterMap.mp (List.of_mem_zip member).1
    obtain ⟨text, _, asked⟩ := Option.bind_eq_some_iff.mp asked
    exact legible_of_spoken asked
  · intro first second cut whole silent former latter
    simp only [session, cut]
    split
    · rename_i unread
      exact run_append_of_stopped controller whole second ⟨none, unread, rfl⟩
    · rename_i text
      have goes : ∀ line ∈ (lines first).map decode?, stops line = false := by
        intro line member
        cases line with
        | none => exact absurd member text
        | some text => exact silent (some text) member
      obtain ⟨replies, last, code⟩ := run_append controller whole second goes
      refine ⟨last, ?_, code⟩
      rw [Transcript.output, replies, List.map_append, String.join_append]
      rfl

/-- A session that is split after its first line. -/
theorem session_in_step_commit :
    let controller := (Controller.ofAlgorithm .timestamp none).start
    -- BEGIN and STATUS 1, split after the first line.
    let first : List UInt8 := [66, 69, 71, 73, 78, 10]
    let second : List UInt8 := [83, 84, 65, 84, 85, 83, 32, 49, 10]
    first.getLast? = some 10 ∧ (∀ line ∈ (lines first).map decode?, line.any exits = false) ∧
    none ∉ (lines first).map decode? ∧
    (run controller (first ++ second)).output = "BEGIN 1\n1 ACTIVE\n" ∧
    (run controller (first ++ second)).output =
      (run controller first).output ++ (run (run controller first).controller second).output := by
  intro controller first second
  have silent : ∀ line ∈ (lines first).map decode?, line.any exits = false := by decide
  have text : none ∉ (lines first).map decode? := by decide
  obtain ⟨_, _, _, _, _, _, _, cut⟩ := session_in_step controller (first ++ second)
  have parted := cut first second rfl rfl silent
  rw [if_neg text] at parted
  exact ⟨rfl, silent, text, by decide, parted.2.1⟩

/-- A line that is not valid text ends the session, whereas a second session on the same controller
continues, so the two parts are not equivalent to the whole. -/
theorem session_past_unreadable :
    let controller := (Controller.ofAlgorithm .lock none).start
    -- BEGIN, a byte that starts no character, and BEGIN again, split after the second line.
    let first : List UInt8 := [66, 69, 71, 73, 78, 10, 255, 10]
    let second : List UInt8 := [66, 69, 71, 73, 78, 10]
    let session := run controller (first ++ second)
    let former := run controller first
    let latter := run former.controller second
    first.getLast? = some 10 ∧
    (∀ line ∈ (lines (first ++ second)).map decode?, line.any exits = false) ∧
    session.output = "BEGIN 1\n" ∧ former.output ++ latter.output = "BEGIN 1\nBEGIN 2\n" ∧
    session.controller.active = [1] ∧ latter.controller.active = [1, 2] ∧
    ¬(session.output = former.output ++ latter.output ∧ session.controller = latter.controller) := by
  intro controller first second session former latter
  have output : session.output = "BEGIN 1\n" := by decide
  have parted : former.output ++ latter.output = "BEGIN 1\nBEGIN 2\n" := by decide
  refine ⟨rfl, by decide, output, parted, by decide, by decide, fun same => ?_⟩
  rw [output, parted] at same
  exact absurd same.1 (by decide)

end Isolation.Shell
