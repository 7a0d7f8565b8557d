import Isolation.Names
import Isolation.Text.Blank
import Isolation.Text.Numeral
/-!
The command language: one request in each line, given by a keyword and arguments separated by
blanks. Keywords are accepted in any case, and objects are named by words. Blank lines and lines
that start with a number sign contain no request.
-/

namespace Isolation.Shell

inductive Request where
  | begin
  | access (action : Action) (id : TxnId) (object : ObjectId)
  | finish (id : TxnId) (commit : Bool)
  | status (id : TxnId)
  | counters
  | help
  | exit
  deriving DecidableEq

inductive RequestError where
  | arguments (keyword : String) (expected given : Nat)
  | transactionId (token : String)
  | command (keyword : String)
  deriving DecidableEq

def RequestError.message : RequestError → String
  | .arguments keyword expected given => s!"{keyword} takes {expected} argument(s), got {given}"
  | .transactionId token => s!"Invalid transaction id '{token}'"
  | .command keyword => s!"Unknown command '{keyword}'; type HELP"

/-- The keywords in the order in which help lists them. -/
def keywords : List String :=
  ["BEGIN", "READ", "WRITE", "COMMIT", "ABORT", "STATUS", "STATS", "HELP", "EXIT"]

namespace Request

def readId (token : List Char) : Except RequestError TxnId :=
  match Text.readNumeral wordBound token with
  | .ok id => .ok id
  | .error _ => .error (.transactionId (String.ofList token))

/-- The number of arguments is checked before any of them is read. -/
def withNone (keyword : String) (request : Request) :
    List (List Char) → Except RequestError Request
  | [] => .ok request
  | arguments => .error (.arguments keyword 0 arguments.length)

def withId (keyword : String) (request : TxnId → Request) :
    List (List Char) → Except RequestError Request
  | [token] => (readId token).map request
  | arguments => .error (.arguments keyword 1 arguments.length)

def withObject (keyword : String) (request : TxnId → ObjectId → Request) :
    List (List Char) → Except RequestError Request
  | [token, object] => (readId token).map (request · (String.ofList object))
  | arguments => .error (.arguments keyword 2 arguments.length)

/-- `HELP`, `EXIT` and `QUIT` ignore their arguments. -/
def ofWords (keyword : String) (arguments : List (List Char)) : Except RequestError Request :=
  match keyword with
  | "BEGIN" => withNone keyword .begin arguments
  | "READ" => withObject keyword (.access .read) arguments
  | "WRITE" => withObject keyword (.access .write) arguments
  | "COMMIT" => withId keyword (.finish · true) arguments
  | "ABORT" => withId keyword (.finish · false) arguments
  | "STATUS" => withId keyword .status arguments
  | "STATS" => withNone keyword .counters arguments
  | "HELP" => .ok .help
  | "EXIT" | "QUIT" => .ok .exit
  | _ => .error (.command keyword)

def upper (word : List Char) : String :=
  String.ofList (word.map Char.toUpper)

/-- The request of a line. -/
def ofLine (line : List Char) : Except RequestError (Option Request) :=
  match Text.words line with
  | [] => .ok none
  | word :: arguments =>
      if word.head? = some '#' then .ok none
      else (ofWords (upper word) arguments).map some

end Request

end Isolation.Shell
