import Isolation.Roster
import Isolation.Verdict
/-!
The interface between engines and algorithms. All engines share the lifecycle of transactions; a
discipline has its own books, by which it decides accesses and commits.
-/

namespace Isolation

/-- The state that a request for access may change. -/
structure Scene (β : Type) where
  made : Transactions
  books : β

class Discipline (β : Type) where
  algorithm : Algorithm
  empty : β
  /-- Whether a transaction gets its own number as its timestamp. -/
  stamps : Bool
  /-- Decides whether a live transaction may access an object. -/
  judge : Scene β → Handle → Transaction → ObjectId → Action → Verdict × Scene β
  /-- Decides whether a transaction that asks to commit may. -/
  accept : β → TxnId → Bool × β
  /-- Settles the books when a transaction leaves, committed or not. -/
  leave : β → TxnId → β

end Isolation
