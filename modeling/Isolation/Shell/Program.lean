import Isolation.Settings
import Isolation.Shell.Options
import Isolation.Shell.Session
/-!
The program: takes its options, makes a controller, and runs one session over its input.
-/

namespace Isolation.Shell

structure ProgramResult where
  code : Nat
  output : String := ""
  errors : String := ""

variable {m : Type → Type} [Monad m] [Files m]

/-- The file of settings is made first where there is none. -/
def openController (options : Options) : m (Except Error Controller) := do
  match options.settings with
  | none => return Controller.ofName (options.algorithm.getD Algorithm.lock.name)
  | some path =>
      match ← Settings.writeDefault path with
      | .error fault => return .error fault
      | .ok () =>
          match ← Settings.load path with
          | .error fault => return .error fault
          | .ok settings => return Controller.ofName settings.algorithm

/-- What was replied before the input turned out to be no text has been written all the same. -/
def serve (controller : Controller) (input : List UInt8) : ProgramResult :=
  let transcript := run controller.start input
  { code := transcript.outcome.code
    output := transcript.output
    errors :=
      if transcript.outcome = .unreadable then errorText FileFault.notText.message ++ "\n" else "" }

def program (arguments : List String) (input : List UInt8) : m ProgramResult := do
  match Options.ofArguments arguments with
  | .error reason => return { code := reason.code }
  | .ok options =>
      match ← openController options with
      | .error fault => return { code := 1, errors := errorText fault.message ++ "\n" }
      | .ok controller => return serve controller input

end Isolation.Shell
