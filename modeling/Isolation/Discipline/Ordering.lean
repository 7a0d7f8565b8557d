import Isolation.Discipline
/-!
Timestamp ordering: conflicting accesses to an object have to follow the order of timestamps. An
access that violates the order is refused and aborts its transaction.
-/

namespace Isolation

namespace Watermarks

def judge (scene : Scene Watermarks) (handle : Handle) (txn : Transaction) (object : ObjectId)
    (action : Action) : Verdict × Scene Watermarks :=
  if txn.isAborted then (.refused .aborted, scene)
  else
    match txn.timestamp with
    | none => (.refused .unstamped, scene)
    | some timestamp =>
        match scene.books.check object action timestamp with
        | .ok books => (.allowed (.inOrder action timestamp), { scene with books })
        | .error violation =>
            (.refused (.late violation),
              { scene with made := scene.made.modify handle Transaction.forceAbort })

end Watermarks

instance : Discipline Watermarks where
  algorithm := .timestamp
  empty := {}
  stamps := true
  judge := Watermarks.judge
  accept books _ := (true, books)
  leave books _ := books

end Isolation
