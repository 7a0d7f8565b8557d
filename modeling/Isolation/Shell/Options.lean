/-!
The options of the command line: an algorithm or a file of settings, but not both.

An option's value follows it, joined to it or as the next argument. A value that follows is only
taken once the option after it, or the end, settles it; so of two faults the one that is settled
first is reported.
-/

namespace Isolation.Shell

structure Options where
  algorithm : Option String := none
  settings : Option String := none
  deriving DecidableEq

/-- Why the arguments are not taken; asking for help is one reason. -/
inductive UsageError where
  | unknownArgument
  | argumentConflict
  | missingValue
  | unneededValue
  | help
  deriving DecidableEq

/-- Help is what was asked for, so it is no failure. -/
def UsageError.code : UsageError → Nat
  | .help => 0
  | _ => 2

inductive Flag where
  | algorithm
  | settings
  | help
  deriving DecidableEq

namespace Flag

def ofName? : String → Option Flag
  | "algorithm" => some algorithm
  | "config" => some settings
  | "help" => some help
  | _ => none

def ofLetter? : Char → Option Flag
  | 'a' => some algorithm
  | 'c' => some settings
  | 'h' => some help
  | _ => none

end Flag

namespace Options

/-- Every option is given at most once. -/
def store (options : Options) (flag : Flag) (value : String) : Except UsageError Options :=
  match flag with
  | .algorithm =>
      if options.algorithm.isSome then .error .argumentConflict
      else .ok { options with algorithm := some value }
  | .settings =>
      if options.settings.isSome then .error .argumentConflict
      else .ok { options with settings := some value }
  | .help => .error .help

/-- The options so far, and the one whose value is awaited or not yet settled. -/
structure Scan where
  options : Options := {}
  pending : Option (Flag × Option String) := none

def Scan.settle (scan : Scan) : Except UsageError Options :=
  match scan.pending with
  | none => .ok scan.options
  | some (_, none) => .error .missingValue
  | some (flag, some value) => scan.options.store flag value

/-- Takes an option with the value joined to it, if any. -/
def Scan.take (scan : Scan) (flag : Flag) (joined : Option String) : Except UsageError Scan := do
  let options ← scan.settle
  match flag, joined with
  | .help, _ => .error .help
  | flag, some value => return { options := ← options.store flag value }
  | flag, none => return { options, pending := some (flag, none) }

/-- A long option joins its value with an equals sign. Help takes none. -/
def Scan.long (scan : Scan) (text : List Char) : Except UsageError Scan :=
  let name := text.takeWhile (· ≠ '=')
  let joined :=
    match text.drop name.length with
    | _ :: value => some (String.ofList value)
    | [] => none
  match Flag.ofName? (String.ofList name), joined with
  | none, _ => .error .unknownArgument
  | some .help, some _ => .error .unneededValue
  | some flag, joined => scan.take flag joined

/-- A short option joins its value directly, or with an equals sign. -/
def Scan.short (scan : Scan) (letter : Char) (text : List Char) : Except UsageError Scan :=
  match Flag.ofLetter? letter, text with
  | none, _ => .error .unknownArgument
  | some flag, [] => scan.take flag none
  | some flag, '=' :: value => scan.take flag (some (String.ofList value))
  | some flag, value => scan.take flag (some (String.ofList value))

/-- An argument that is no option can only be the value of the option before it. -/
def Scan.value (scan : Scan) (text : String) : Except UsageError Scan :=
  match scan.pending with
  | some (flag, none) => .ok { scan with pending := some (flag, some text) }
  | _ => .error .unknownArgument

def Scan.step (scan : Scan) (argument : String) : Except UsageError Scan :=
  match argument.toList with
  | '-' :: '-' :: text => scan.long text
  | '-' :: letter :: text => scan.short letter text
  | _ => scan.value argument

/-- After two dashes no options follow, and nothing else is expected. -/
def Scan.run (scan : Scan) : List String → Except UsageError Options
  | [] => scan.settle
  | ["--"] => scan.settle
  | argument :: rest => do
      if argument = "--" then .error .unknownArgument
      else (← scan.step argument).run rest

def ofArguments (arguments : List String) : Except UsageError Options := do
  let options ← Scan.run {} arguments
  if options.algorithm.isSome && options.settings.isSome then .error .argumentConflict
  else .ok options

end Options

end Isolation.Shell
