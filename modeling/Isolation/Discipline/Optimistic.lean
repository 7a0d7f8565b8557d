import Isolation.Discipline
import Isolation.Ledger
/-!
Optimistic concurrency control: every access is allowed and recorded, and a commit requires a
successful validation.
-/

namespace Isolation

namespace Ledger

def judge (scene : Scene Ledger) (_ : Handle) (txn : Transaction) (object : ObjectId)
    (action : Action) : Verdict × Scene Ledger :=
  if txn.isAborted then (.refused .aborted, scene)
  else
    (.allowed (.recorded action),
      { scene with books := scene.books.access txn.id object action })

end Ledger

instance : Discipline Ledger where
  algorithm := .validation
  empty := {}
  stamps := false
  judge := Ledger.judge
  accept books id :=
    let (conflicts, books) := books.validate id
    (conflicts.isValid, books)
  leave books id := books.discard id

end Isolation
