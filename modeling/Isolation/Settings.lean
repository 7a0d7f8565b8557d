import Isolation.Error
import Isolation.Toml.Document
import Isolation.Toml.Writer
/-!
The settings: which algorithm a controller is to run, kept as text in a file.
-/

namespace Isolation

structure Settings where
  /-- Any name of an algorithm; a name that is none is found out when the settings are loaded. -/
  algorithm : String := Algorithm.lock.name
  deriving DecidableEq

namespace Settings

def fileName : String := "concurrency.toml"

def defaultText : String :=
  "\n".intercalate
    ["# Strata concurrency-control configuration",
      "#",
      "# Protocol run by the concurrency-control manager:",
      "#   \"lock\"       = two-phase locking with wound-wait (default)",
      "#   \"timestamp\"  = timestamp ordering",
      "#   \"validation\" = optimistic concurrency control",
      "algorithm = \"lock\"",
      ""]

/-- Other names than that of the algorithm are ignored. -/
def ofText? (text : String) : Option Settings := do
  let document ← Toml.Document.ofText? text
  match document.top? "algorithm" with
  | none => return {}
  | some (.value (.text algorithm)) => return { algorithm }
  | some _ => none

def toText (settings : Settings) : String :=
  Toml.definition "algorithm" settings.algorithm

variable {m : Type → Type} [Monad m] [Files m]

def load (path : String) : m (Except Error Settings) := do
  match ← Files.readText path with
  | .error fault => return .error (.settings (.unreadable path fault))
  | .ok text =>
      match ofText? text with
      | none => return .error (.settings (.malformed path))
      | some settings => return (Algorithm.ofName settings.algorithm).map fun _ => settings

/-- A file that is there is left as it is. -/
def writeDefault (path : String) : m (Except Error Unit) := do
  if ← Files.isPresent path then return .ok ()
  else
    let written ← Files.write path defaultText.toUTF8
    return written.mapError fun fault => .settings (.undefaulted path fault)

def save (settings : Settings) (path : String) : m (Except Error Unit) := do
  let written ← Files.write path settings.toText.toUTF8
  return written.mapError fun fault => .settings (.unwritable path fault)

end Settings

end Isolation
