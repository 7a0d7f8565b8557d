import Std.Data.ExtTreeMap
/-!
Files: what the settings ask of a file system, and a directory tree held in memory that answers.
-/

namespace Isolation

/-- Why a file could not be read or written. -/
inductive FileFault where
  | missing
  | notDirectory
  | isDirectory
  | nameTooLong
  | nulInName
  | notText
  | other (text : String)
  deriving DecidableEq

def FileFault.message : FileFault → String
  | .missing => "No such file or directory (os error 2)"
  | .notDirectory => "Not a directory (os error 20)"
  | .isDirectory => "Is a directory (os error 21)"
  | .nameTooLong => "File name too long (os error 36)"
  | .nulInName => "file name contained an unexpected NUL byte"
  | .notText => "stream did not contain valid UTF-8"
  | .other text => text

class Files (m : Type → Type) where
  isPresent : String → m Bool
  read : String → m (Except FileFault ByteArray)
  write : String → ByteArray → m (Except FileFault Unit)

/-- Reads a file that has to be text. -/
def Files.readText {m : Type → Type} [Monad m] [Files m] (path : String) :
    m (Except FileFault String) := do
  match ← Files.read path with
  | .error fault => return .error fault
  | .ok content =>
      match String.fromUTF8? content with
      | some text => return .ok text
      | none => return .error .notText

/-- A device is always empty, and forgets what is written to it. -/
inductive Node where
  | directory
  | file (content : ByteArray)
  | device

/-- Where the names of a place start. Of the directories above the working directory it is only
known that they are there. -/
inductive Anchor where
  | working
  | above
  | root
  deriving DecidableEq

/-- A place in the tree: the names that lead to it. -/
structure Place where
  anchor : Anchor := .working
  names : List String := []
  deriving DecidableEq

namespace Place

def child (place : Place) (name : String) : Place :=
  { place with names := place.names ++ [name] }

/-- Only the root has nothing above it; it is its own parent. -/
def parent (place : Place) : Place :=
  if place.names.isEmpty then
    match place.anchor with
    | .root => place
    | _ => { anchor := .above }
  else { place with names := place.names.dropLast }

/-- A path that leads to the place. -/
def path (place : Place) : String :=
  let start :=
    match place.anchor with
    | .working => "."
    | .above => ".."
    | .root => ""
  "/".intercalate (start :: place.names)

/-- The directories that the root holds on every system. -/
def standard : List String :=
  ["bin", "boot", "dev", "etc", "home", "lib", "media", "mnt", "opt", "proc", "root", "run", "sbin",
    "srv", "sys", "tmp", "usr", "var"]

/-- What is at a place whatever was made or written. -/
def given? (place : Place) : Option Node :=
  match place.anchor, place.names with
  | _, [] => some .directory
  | .root, [name] => if name ∈ standard then some .directory else none
  | .root, ["dev", "null"] => some .device
  | _, _ => none

end Place

/-- What was made and written so far, by path. -/
structure Folder where
  nodes : Std.ExtTreeMap String Node := ∅

namespace Folder

def node? (folder : Folder) (place : Place) : Option Node :=
  place.given? <|> folder.nodes[place.path]?

def put (folder : Folder) (place : Place) (node : Node) : Folder :=
  { nodes := folder.nodes.insert place.path node }

/-- Every step of a path but the last has to end in a directory. -/
def walk (folder : Folder) : Place → List String → Except FileFault Place
  | place, [] => .ok place
  | place, step :: rest =>
      match folder.node? place with
      | none => .error .missing
      | some .directory =>
          if step = "" || step = "." then walk folder place rest
          else if step = ".." then walk folder place.parent rest
          else if 255 < step.utf8ByteSize then .error .nameTooLong
          else walk folder (place.child step) rest
      | some _ => .error .notDirectory

/-- Where a path starts, and its steps from there. -/
def steps (path : String) : Except FileFault (Place × List String) :=
  if path.any (· = '\x00') then .error .nulInName
  else if path = "" then .error .missing
  else if 4096 ≤ path.utf8ByteSize then .error .nameTooLong
  else .ok ({ anchor := if path.startsWith "/" then .root else .working }, path.splitOn "/")

def find (folder : Folder) (path : String) : Except FileFault Place := do
  let (start, names) ← steps path
  folder.walk start names

def isPresent (folder : Folder) (path : String) : Bool :=
  match folder.find path with
  | .ok place => (folder.node? place).isSome
  | .error _ => false

def read (folder : Folder) (path : String) : Except FileFault ByteArray := do
  let place ← folder.find path
  match folder.node? place with
  | none => .error .missing
  | some .directory => .error .isDirectory
  | some (.file content) => .ok content
  | some .device => .ok ByteArray.empty

/-- A new file needs a name of its own: a path that ends in a slash or a dot names a directory. -/
def write (folder : Folder) (path : String) (content : ByteArray) : Except FileFault Folder := do
  let (start, names) ← steps path
  let named := (names.reverse.dropWhile (· = "")).reverse
  let parent ← folder.walk start (named.dropLast ++ [""])
  if named.length < names.length || (named.getLast?.any fun last => last = "." || last = "..") then
    .error .isDirectory
  else
    let place ← folder.walk parent (named.drop (named.length - 1))
    match folder.node? place with
    | some .directory => .error .isDirectory
    | some .device => .ok folder
    | _ => .ok (folder.put place (.file content))

/-- Makes a directory of the working directory and all that lead to it. -/
def addDirectory (folder : Folder) (path : String) : Folder :=
  let names := (path.splitOn "/").filter fun name => name ≠ "" && name ≠ "."
  (List.range names.length).foldl
    (fun made count => made.put { names := names.take (count + 1) } .directory)
    folder

end Folder

instance : Files (StateM Folder) where
  isPresent path := do return (← get).isPresent path
  read path := do return (← get).read path
  write path content := do
    match (← get).write path content with
    | .ok folder => set folder; return .ok ()
    | .error fault => return .error fault

end Isolation
