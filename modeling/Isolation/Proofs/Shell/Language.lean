import Isolation.Proofs.Shell.Session
import Isolation.Proofs.Text.Numeral
import Isolation.Proofs.Text.Spacing

/-!
The command language. A request has several renderings: the keyword in any case, the number with
leading zeros and an optional plus sign, and arbitrary blanks around the words. A line is parsed as
a request if and only if it is one of its renderings.
-/

namespace Isolation.Shell

open Text

namespace Request

/-- The keyword of a request. -/
def keyword : Request → String
  | .begin => "BEGIN"
  | .access .read _ _ => "READ"
  | .access .write _ _ => "WRITE"
  | .finish _ true => "COMMIT"
  | .finish _ false => "ABORT"
  | .status _ => "STATUS"
  | .counters => "STATS"
  | .help => "HELP"
  | .exit => "EXIT"

/-- The argument words of a request. -/
inductive Takes : Request → List (List Char) → Prop where
  | begin : Takes .begin []
  | access {action : Action} {id : TxnId} {object : ObjectId} {token : List Char}
      (numeral : Numeral id token) (fits : id < wordBound) :
      Takes (.access action id object) [token, object.toList]
  | finish {id : TxnId} {commit : Bool} {token : List Char} (numeral : Numeral id token)
      (fits : id < wordBound) : Takes (.finish id commit) [token]
  | status {id : TxnId} {token : List Char} (numeral : Numeral id token) (fits : id < wordBound) :
      Takes (.status id) [token]
  | counters : Takes .counters []
  | help (arguments : List (List Char)) : Takes .help arguments
  | exit (arguments : List (List Char)) : Takes .exit arguments

/-- The line is a rendering of the request. `QUIT` is a second keyword of `exit`. -/
def Renders (request : Request) (line : List Char) : Prop :=
  ∃ word arguments, Spaced (word :: arguments) line ∧ request.Takes arguments ∧
    (Spells request.keyword.toList word ∨ request = .exit ∧ Spells "QUIT".toList word)

/-- The errors of a list of words, with the words that cause them. -/
inductive Faulty (word : String) (arguments : List (List Char)) : RequestError → Prop where
  | arguments {expected : Nat} (other : arguments.length ≠ expected) :
      Faulty word arguments (.arguments word expected arguments.length)
  | transactionId {token : List Char} {rest : List (List Char)} (first : arguments = token :: rest)
      (none : ∀ id < wordBound, ¬ Numeral id token) :
      Faulty word arguments (.transactionId (String.ofList token))
  | command (unknown : word ∉ "QUIT" :: keywords) : Faulty word arguments (.command word)

variable {word : String} {arguments : List (List Char)} {request asked : Request}
  {fault : RequestError} {token : List Char} {id : TxnId}

theorem readId_eq_ok_iff : readId token = .ok id ↔ Numeral id token ∧ id < wordBound := by
  rw [← readNumeral_eq_ok_iff, readId]
  split
  · rename_i read
    rw [read]
    simp
  · rename_i failed
    rw [failed]
    simp

theorem map_readId_eq_ok {request : TxnId → Request}
    (parsed : (readId token).map request = .ok asked) :
    ∃ id, asked = request id ∧ Numeral id token ∧ id < wordBound := by
  cases read : readId token with
  | error fault =>
      rw [read] at parsed
      contradiction
  | ok id =>
      rw [read] at parsed
      exact ⟨id, (Except.ok.inj parsed).symm, readId_eq_ok_iff.mp read⟩

theorem map_readId_eq_error {request : TxnId → Request}
    (failed : (readId token).map request = .error fault) :
    fault = .transactionId (String.ofList token) ∧ ∀ id < wordBound, ¬ Numeral id token := by
  constructor
  · unfold readId at failed
    split at failed
    · contradiction
    · exact (Except.error.inj failed).symm
  · intro id fits numeral
    rw [readId_eq_ok_iff.mpr ⟨numeral, fits⟩] at failed
    contradiction

/-! ### Parsed requests -/

theorem understood_withNone (parsed : withNone word request arguments = .ok asked) :
    arguments = [] ∧ asked = request := by
  unfold withNone at parsed
  split at parsed
  · exact ⟨rfl, (Except.ok.inj parsed).symm⟩
  · contradiction

theorem understood_withId {request : TxnId → Request}
    (parsed : withId word request arguments = .ok asked) :
    ∃ id token, arguments = [token] ∧ asked = request id ∧ Numeral id token ∧ id < wordBound := by
  unfold withId at parsed
  split at parsed
  · rename_i token
    obtain ⟨id, same, numeral⟩ := map_readId_eq_ok parsed
    exact ⟨id, token, rfl, same, numeral⟩
  · contradiction

theorem understood_withObject {request : TxnId → ObjectId → Request}
    (parsed : withObject word request arguments = .ok asked) :
    ∃ id object token, arguments = [token, object.toList] ∧ asked = request id object ∧
      Numeral id token ∧ id < wordBound := by
  unfold withObject at parsed
  split at parsed
  · rename_i token object
    obtain ⟨id, same, numeral⟩ := map_readId_eq_ok parsed
    exact ⟨id, String.ofList object, token, by rw [String.toList_ofList], same, numeral⟩
  · contradiction

/-- The words of a parsed request are its keyword and arguments that it takes. -/
theorem takes_of_ofWords (parsed : ofWords word arguments = .ok asked) :
    asked.Takes arguments ∧ (word = asked.keyword ∨ asked = .exit ∧ word = "QUIT") := by
  unfold ofWords at parsed
  split at parsed
  case h_1 | h_7 =>
      obtain ⟨rfl, rfl⟩ := understood_withNone parsed
      exact ⟨by constructor, .inl rfl⟩
  case h_2 | h_3 =>
      obtain ⟨id, object, token, rfl, rfl, numeral, fits⟩ := understood_withObject parsed
      exact ⟨.access numeral fits, .inl rfl⟩
  case h_4 | h_5 =>
      obtain ⟨id, token, rfl, rfl, numeral, fits⟩ := understood_withId parsed
      exact ⟨.finish numeral fits, .inl rfl⟩
  case h_6 =>
      obtain ⟨id, token, rfl, rfl, numeral, fits⟩ := understood_withId parsed
      exact ⟨.status numeral fits, .inl rfl⟩
  case h_8 =>
      cases parsed
      exact ⟨.help arguments, .inl rfl⟩
  case h_9 =>
      cases parsed
      exact ⟨.exit arguments, .inl rfl⟩
  case h_10 =>
      cases parsed
      exact ⟨.exit arguments, .inr ⟨rfl, rfl⟩⟩
  case h_11 => contradiction

theorem ofWords_of_takes (takes : request.Takes arguments) :
    ofWords request.keyword arguments = .ok request := by
  cases takes with
  | begin | counters | help | exit => rfl
  | @access action id object token numeral fits =>
      have read := readId_eq_ok_iff.mpr ⟨numeral, fits⟩
      cases action <;>
        simp only [keyword, ofWords, withObject, read, Except.map, String.ofList_toList]
  | @finish id commit token numeral fits =>
      have read := readId_eq_ok_iff.mpr ⟨numeral, fits⟩
      cases commit <;> simp only [keyword, ofWords, withId, read, Except.map]
  | status numeral fits =>
      have read := readId_eq_ok_iff.mpr ⟨numeral, fits⟩
      simp only [keyword, ofWords, withId, read, Except.map]

theorem ofWords_eq_ok_iff : ofWords word arguments = .ok request ↔
    request.Takes arguments ∧ (word = request.keyword ∨ request = .exit ∧ word = "QUIT") := by
  constructor
  · exact takes_of_ofWords
  · intro given
    obtain ⟨takes, rfl | ⟨rfl, rfl⟩⟩ := given
    · exact ofWords_of_takes takes
    · rfl

/-! ### Errors -/

theorem faulty_withNone (failed : withNone word request arguments = .error fault) :
    Faulty word arguments fault := by
  unfold withNone at failed
  split at failed
  · contradiction
  · rename_i some
    cases failed
    exact .arguments (by simpa using some)

theorem faulty_withId {request : TxnId → Request}
    (failed : withId word request arguments = .error fault) : Faulty word arguments fault := by
  unfold withId at failed
  split at failed
  · obtain ⟨rfl, none⟩ := map_readId_eq_error failed
    exact .transactionId rfl none
  · rename_i other
    cases failed
    exact .arguments fun one => by
      obtain ⟨token, rfl⟩ := List.length_eq_one_iff.mp one
      exact other token rfl

theorem faulty_withObject {request : TxnId → ObjectId → Request}
    (failed : withObject word request arguments = .error fault) : Faulty word arguments fault := by
  unfold withObject at failed
  split at failed
  · obtain ⟨rfl, none⟩ := map_readId_eq_error failed
    exact .transactionId rfl none
  · rename_i other
    cases failed
    exact .arguments fun two => by
      obtain ⟨token, object, rfl⟩ := List.length_eq_two.mp two
      exact other token object rfl

theorem faulty_of_ofWords (failed : ofWords word arguments = .error fault) :
    Faulty word arguments fault := by
  unfold ofWords at failed
  split at failed
  case h_1 | h_7 => exact faulty_withNone failed
  case h_2 | h_3 => exact faulty_withObject failed
  case h_4 | h_5 | h_6 => exact faulty_withId failed
  case h_8 | h_9 | h_10 => contradiction
  case h_11 =>
      cases failed
      exact .command (by simp_all [keywords])

/-! ### Lines -/

theorem keyword_mem (request : Request) : request.keyword ∈ keywords := by
  cases request with
  | access action id object => cases action <;> simp [keyword, keywords]
  | finish id commit => cases commit <;> simp [keyword, keywords]
  | begin | status id | counters | help | exit => simp [keyword, keywords]

theorem keywords_are_words :
    ∀ keyword ∈ keywords, keyword.toList ≠ [] ∧ ∀ c ∈ keyword.toList, isBlank c = false := by
  have visible : keywords.all (fun keyword =>
      !keyword.toList.isEmpty && keyword.toList.all fun c => !isBlank c) = true := by decide
  simpa using visible

theorem isUpper_of_mem_keywords : ∀ keyword ∈ keywords, ∀ c ∈ keyword.toList, c.isUpper = true := by
  have letters : keywords.all (fun keyword => keyword.toList.all Char.isUpper) = true := by decide
  simpa only [List.all_eq_true] using letters

theorem isUpper_of_mem_quit : ∀ c ∈ "QUIT".toList, c.isUpper = true :=
  List.all_eq_true.mp (by decide)

theorem upper_eq_iff {keyword : String} (capitals : ∀ c ∈ keyword.toList, c.isUpper = true)
    {word : List Char} : upper word = keyword ↔ Spells keyword.toList word := by
  rw [spells_iff capitals, upper, ← String.toList_inj, String.toList_ofList]

/-- The first character of a spelled keyword is not the comment sign. -/
theorem head?_ne_of_spells {capitals word : List Char} (upper : ∀ c ∈ capitals, c.isUpper = true)
    (spells : Spells capitals word) : word.head? ≠ some '#' := by
  intro comment
  obtain ⟨rest, rfl⟩ := List.head?_eq_some_iff.mp comment
  rw [spells_iff upper, List.map_cons] at spells
  have sign : '#'.toUpper.isUpper = true := upper _ (spells ▸ List.mem_cons_self)
  contradiction

theorem ofLine_of_words {line word : List Char} (split : words line = word :: arguments)
    (spoken : word.head? ≠ some '#') : ofLine line = (ofWords (upper word) arguments).map some := by
  rw [ofLine, split]
  exact if_neg spoken

/-- A line is silent, or parsed from its words. -/
theorem ofLine_cases (line : List Char) : ofLine line = .ok none ∨ ∃ word arguments,
    words line = word :: arguments ∧ ofLine line = (ofWords (upper word) arguments).map some := by
  cases split : words line with
  | nil => exact .inl (by rw [ofLine, split])
  | cons word arguments =>
      by_cases comment : word.head? = some '#'
      · exact .inl (by rw [ofLine, split]; exact if_pos comment)
      · exact .inr ⟨word, arguments, rfl, ofLine_of_words split comment⟩

theorem renders_of_ofLine {line : List Char} (understood : ofLine line = .ok (some request)) :
    Renders request line := by
  obtain silent | ⟨word, arguments, split, read⟩ := ofLine_cases line
  · rw [silent] at understood
    cases understood
  · rw [read] at understood
    cases parsed : ofWords (upper word) arguments with
    | error fault =>
        rw [parsed] at understood
        contradiction
    | ok asked =>
        rw [parsed] at understood
        obtain rfl : asked = request := Option.some.inj (Except.ok.inj understood)
        obtain ⟨takes, named⟩ := takes_of_ofWords parsed
        rw [upper_eq_iff (isUpper_of_mem_keywords _ asked.keyword_mem),
          upper_eq_iff isUpper_of_mem_quit] at named
        exact ⟨word, arguments, words_eq_iff.mp split, takes, named⟩

theorem ofLine_of_renders {line : List Char} (renders : Renders request line) :
    ofLine line = .ok (some request) := by
  obtain ⟨word, arguments, spaced, takes, named⟩ := renders
  have letters := isUpper_of_mem_keywords _ request.keyword_mem
  have spoken : word.head? ≠ some '#' := by
    rcases named with spells | ⟨_, spells⟩
    · exact head?_ne_of_spells letters spells
    · exact head?_ne_of_spells isUpper_of_mem_quit spells
  rw [← upper_eq_iff letters, ← upper_eq_iff isUpper_of_mem_quit] at named
  rw [ofLine_of_words spaced.words_eq spoken, ofWords_eq_ok_iff.mpr ⟨takes, named⟩]
  rfl

theorem ofLine_eq_some_iff {line : List Char} :
    ofLine line = .ok (some request) ↔ Renders request line :=
  ⟨renders_of_ofLine, ofLine_of_renders⟩

theorem ofLine_eq_none_iff {line : List Char} :
    ofLine line = .ok none ↔ trim line = [] ∨ (trim line).head? = some '#' := by
  rw [← spoken?_eq_none, spoken?]
  cases ofLine line with
  | error fault => simp
  | ok request => simp

theorem faulty_of_ofLine {line : List Char} (failed : ofLine line = .error fault) :
    ∃ word arguments, words line = word :: arguments ∧ Faulty (upper word) arguments fault := by
  obtain silent | ⟨word, arguments, split, read⟩ := ofLine_cases line
  · rw [silent] at failed
    contradiction
  · rw [read] at failed
    cases parsed : ofWords (upper word) arguments with
    | error reason =>
        rw [parsed] at failed
        obtain rfl := Except.error.inj failed
        exact ⟨word, arguments, split, faulty_of_ofWords parsed⟩
    | ok asked =>
        rw [parsed] at failed
        contradiction

/-! ### Renderings -/

/-- The request has a rendering: its number is below the bound, and its object is a word. -/
def Writable : Request → Prop
  | .access _ id object => id < wordBound ∧ object.toList ≠ [] ∧ ∀ c ∈ object.toList, isBlank c = false
  | .finish id _ | .status id => id < wordBound
  | .begin | .counters | .help | .exit => True

theorem Renders.writable {line : List Char} (renders : Renders request line) : request.Writable := by
  obtain ⟨word, arguments, spaced, takes, _⟩ := renders
  cases takes with
  | access numeral fits => exact ⟨fits, spaced.mem _ (by simp)⟩
  | finish numeral fits | status numeral fits => exact fits
  | begin | counters | help | exit => trivial

/-- The argument words of the canonical rendering. -/
def operands : Request → List (List Char)
  | .access _ id object => [Nat.toDigits 10 id, object.toList]
  | .finish id _ | .status id => [Nat.toDigits 10 id]
  | .begin | .counters | .help | .exit => []

theorem takes_operands (writable : request.Writable) : request.Takes request.operands := by
  cases request with
  | access action id object => exact .access (.toDigits id) writable.1
  | finish id commit => exact .finish (.toDigits id) writable
  | status id => exact .status (.toDigits id) writable
  | begin | counters => constructor
  | help => exact .help []
  | exit => exact .exit []

theorem operands_are_words (writable : request.Writable) :
    ∀ token ∈ request.operands, token ≠ [] ∧ ∀ c ∈ token, isBlank c = false := by
  have number (id : TxnId) : Nat.toDigits 10 id ≠ [] ∧ ∀ c ∈ Nat.toDigits 10 id, isBlank c = false :=
    ⟨Nat.toDigits_ne_nil, fun c member => isBlank_of_isDigit
      (Nat.isDigit_of_mem_toDigits (by decide) (by decide) member)⟩
  cases request with
  | access action id object =>
      exact List.forall_mem_cons.mpr ⟨number id, List.forall_mem_singleton.mpr writable.2⟩
  | finish id commit | status id => exact List.forall_mem_singleton.mpr (number id)
  | begin | counters | help | exit => simp [operands]

/-- The canonical rendering, with single spaces. -/
def line (request : Request) : List Char :=
  [' '].intercalate (request.keyword.toList :: request.operands)

theorem renders_line (writable : request.Writable) : request.Renders request.line := by
  have spaced := spaced_intercalate (List.forall_mem_cons.mpr
    ⟨keywords_are_words _ request.keyword_mem, operands_are_words writable⟩)
  exact ⟨_, _, spaced, takes_operands writable, .inl (.refl _)⟩

/-- Soundness and completeness of the parser, for every line. A line is parsed as a request if and
only if it is a rendering of it, and as no request if and only if it is blank or a comment. Every
other line is an error, which describes its words by `Faulty`. A nonblank line has a first word. The
requests with a rendering are those that satisfy `Writable`. -/
theorem command_language (line : List Char) :
    (∀ request, ofLine line = .ok (some request) ↔ Renders request line) ∧
    (ofLine line = .ok none ↔ trim line = [] ∨ (trim line).head? = some '#') ∧
    ((∃ fault, ofLine line = .error fault) ↔
      ¬ (trim line = [] ∨ (trim line).head? = some '#') ∧ ∀ request, ¬ Renders request line) ∧
    (trim line ≠ [] → words (trim line) ≠ []) ∧
    (∀ fault, ofLine line = .error fault → ∃ word arguments,
      words (trim line) = word :: arguments ∧ Faulty (upper word) arguments fault) ∧
    ∀ request : Request, request.Writable ↔ ∃ written, Renders request written := by
  refine ⟨fun request => ofLine_eq_some_iff, ofLine_eq_none_iff, ?_, fun some nothing => some ?_,
    fun fault failed => words_trim line ▸ faulty_of_ofLine failed,
    fun request => ⟨fun writable => ⟨_, renders_line writable⟩, fun ⟨_, renders⟩ => renders.writable⟩⟩
  · simp only [← ofLine_eq_none_iff, ← ofLine_eq_some_iff]
    cases ofLine line with
    | error fault => simp
    | ok request => cases request <;> simp
  · rwa [words_trim, words_eq_nil_iff] at nothing

/-- A rendering with a plus sign, leading zeros, small letters and blanks other than spaces. -/
example : ofLine "\u3000rEaD  +007\tα/β ".toList = .ok (some (.access .read 7 "α/β")) := by decide

end Request

end Isolation.Shell
