import Isolation.Controller
import Isolation.Shell.Reply
import Isolation.Shell.Request
/-!
Sessions: a controller executes the requests of a text line by line and replies to each. Lines
without a request get no reply, and no line after an exit is executed.
-/

namespace Isolation.Shell

/-- Executes one request. -/
def execute (controller : Controller) : Request → Except Error Reply × Controller
  | .begin =>
      let (outcome, controller) := controller.begin
      (outcome.map .began, controller)
  | .access action id object =>
      let (verdict, controller) := controller.access object id action
      (.ok (.answered verdict.isAllowed verdict.reason), controller)
  | .finish id commit =>
      let (outcome, controller) := controller.finish id commit
      (outcome.map (.ended id), controller)
  | .status id => (.ok (.seen id (controller.status? id)), controller)
  | .counters => (.ok (.counted controller.counters), controller)
  | .help => (.ok .help, controller)
  | .exit => (.ok .farewell, controller)

/-- The reply to a line, and the state of the session after it. -/
structure LineResult where
  reply : Option String := none
  failed : Bool := false
  exits : Bool := false

def handleLine (controller : Controller) (line : List Char) : LineResult × Controller :=
  match Request.ofLine line with
  | .ok none => ({}, controller)
  | .error fault => ({ reply := some (errorText fault.message), failed := true }, controller)
  | .ok (some request) =>
      let (outcome, controller) := execute controller request
      match outcome with
      | .ok reply => ({ reply := some reply.text, exits := request = .exit }, controller)
      | .error fault => ({ reply := some (errorText fault.message), failed := true }, controller)

/-- Splits bytes at line feeds and removes one carriage return before each. -/
def linesFrom (line : List UInt8) : List UInt8 → List (List UInt8)
  | [] => if line.isEmpty then [] else [line.reverse]
  | byte :: rest =>
      if byte = 10 then
        (if line.head? = some 13 then line.tail else line).reverse :: linesFrom [] rest
      else linesFrom (byte :: line) rest

def lines (input : List UInt8) : List (List UInt8) :=
  linesFrom [] input

def decode? (line : List UInt8) : Option (List Char) :=
  (String.fromUTF8? ⟨line.toArray⟩).map String.toList

/-- How a session ended. -/
inductive Outcome where
  | ended (failed : Bool)
  | unreadable
  deriving DecidableEq

/-- The exit code is nonzero if a line failed or was not valid text. -/
def Outcome.code : Outcome → Nat
  | ended false => 0
  | _ => 1

/-- The replies of a session, its outcome and its final controller. -/
structure Transcript where
  replies : List String
  outcome : Outcome
  controller : Controller

def Transcript.output (transcript : Transcript) : String :=
  String.join (transcript.replies.map (· ++ "\n"))

/-- The replies to all lines up to the first exit or invalid text. -/
def replyTo (controller : Controller) (failed : Bool) : List (List UInt8) → Transcript
  | [] => { replies := [], outcome := .ended failed, controller }
  | line :: rest =>
      match decode? line with
      | none => { replies := [], outcome := .unreadable, controller }
      | some text =>
          let (result, controller) := handleLine controller text
          let failed := failed || result.failed
          let later :=
            if result.exits then { replies := [], outcome := .ended failed, controller }
            else replyTo controller failed rest
          { later with replies := result.reply.toList ++ later.replies }

def run (controller : Controller) (input : List UInt8) : Transcript :=
  replyTo controller false (lines input)

def prompt (controller : Controller) : String :=
  let live := controller.active.length
  if live = 0 then s!"strata-cc:{controller.algorithm.name}> "
  else s!"strata-cc:{controller.algorithm.name}({live} live)> "

end Isolation.Shell
