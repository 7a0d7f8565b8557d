import Isolation.Engine
import Isolation.Lock.Table
/-!
Strict two-phase locking: reads acquire shared locks, writes exclusive ones, and a transaction keeps
its locks until it ends.
-/

namespace Isolation

/-- The log of a recovery component, which engines hold without using it. -/
structure RecoveryLog where
  calls : Nat := 0
  deriving DecidableEq

structure Locking where
  table : LockTable := {}
  recovery : Option RecoveryLog := none

namespace Locking

def modeFor : Action → LockMode
  | .read => .shared
  | .write => .exclusive

/-- The refusal of a transaction that is not active. -/
def refusal (txn : Transaction) : Refusal :=
  if txn.isAborted then .aborted else .inactive

def verdict (txn : Transaction) (object : ObjectId) (mode : LockMode) : LockOutcome → Verdict
  | .granted => .allowed (.locked mode)
  | .upgraded => .allowed .upgraded
  | .requesterInactive => .refused (refusal txn)
  | .wounded victims => .refused (.wounded victims)
  | .wait blockers => .refused (.held object blockers)

def judge (scene : Scene Locking) (handle : Handle) (txn : Transaction) (object : ObjectId)
    (action : Action) : Verdict × Scene Locking :=
  if txn.isActive then
    let attempt := scene.books.table.acquire scene.made object handle (modeFor action)
    (verdict txn object (modeFor action) attempt.outcome,
      { made := attempt.made, books := { scene.books with table := attempt.table } })
  else (.refused (refusal txn), scene)

end Locking

instance : Discipline Locking where
  algorithm := .lock
  empty := {}
  stamps := true
  judge := Locking.judge
  accept books _ := (true, books)
  leave books id := { books with table := books.table.release id }

/-- A direct lock request by the holder of a handle, without the checks of the engine. -/
def Engine.acquire (engine : Engine Locking) (handle : Handle) (object : ObjectId) (mode : LockMode) :
    LockOutcome × Engine Locking :=
  let attempt := engine.books.table.acquire engine.roster.made object handle mode
  (attempt.outcome, { engine with
    roster := { engine.roster with made := attempt.made }
    books := { engine.books with table := attempt.table } })

end Isolation
