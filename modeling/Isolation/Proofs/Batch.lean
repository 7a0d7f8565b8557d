import Mathlib.Data.List.Perm.Basic
import Isolation.Proofs.Endings
import Isolation.Proofs.Pages

/-!
Batched accesses. Granting one object preserves the verdict on every other object, so the verdict on
a batch depends only on its set of objects, and so does the engine after an allowed batch. A refused
batch is the composition of the grants before its first refused object with that single refused
access.
-/

namespace Isolation

namespace Engine

variable {β : Type} [Discipline β] {engine next : Engine β} {id : TxnId} {action : Action}
  {object other : ObjectId} {objects : List ObjectId}

/-- The engine after an access if it is allowed, and the unchanged engine otherwise. -/
def grant (id : TxnId) (action : Action) (engine : Engine β) (object : ObjectId) : Engine β :=
  if (engine.access object id action).1.isAllowed then (engine.access object id action).2 else engine

theorem grant_of_allowed (allowed : (engine.access object id action).1.isAllowed = true) :
    engine.grant id action object = (engine.access object id action).2 := if_pos allowed

theorem grant_of_refused (refused : (engine.access object id action).1.isAllowed = false) :
    engine.grant id action object = engine := if_neg (Bool.eq_false_iff.mp refused)

variable [Discipline.DecidesByPage β]

def page (engine : Engine β) (object : ObjectId) : Page :=
  Discipline.DecidesByPage.page engine.books object

/-- An allowed access changes no component of the engine except its books. -/
theorem access_of_allowed (allowed : (engine.access object id action).1.isAllowed = true) :
    (engine.access object id action).2 =
      { engine with books := (engine.access object id action).2.books } := by
  cases found : engine.roster.find? id with
  | none =>
      rw [(access_absent found object action).1] at allowed
      contradiction
  | some entry =>
      obtain ⟨verdict, _⟩ := access_found found object action
      have kept := Discipline.DecidesByPage.judge_made (verdict ▸ allowed)
      have counters : engine.counters.countVerdict (engine.access object id action).1 =
          engine.counters := if_pos allowed
      rw [verdict] at counters
      simp only [access, found, kept, counters]

theorem page_access_other (engine : Engine β) (id : TxnId) (action : Action)
    (different : object ≠ other) :
    (engine.access object id action).2.page other = engine.page other := by
  cases found : engine.roster.find? id with
  | none => simp only [page, (access_absent found object action).2]
  | some entry =>
      simp only [page, (access_found found object action).2]
      exact Discipline.DecidesByPage.judge_other _ _ _ action different

/-- The verdict and the effect of an access depend only on the roster and on the page of the object. -/
theorem access_congr (roster : next.roster = engine.roster)
    (page : next.page object = engine.page object) (id : TxnId) (action : Action) :
    (next.access object id action).1 = (engine.access object id action).1 ∧
      (next.access object id action).2.roster = (engine.access object id action).2.roster ∧
      (next.access object id action).2.page object = (engine.access object id action).2.page object := by
  cases found : engine.roster.find? id with
  | none =>
      have absent : next.roster.find? id = none := roster ▸ found
      simp only [access, found, absent]
      exact ⟨trivial, roster, page⟩
  | some entry =>
      have again : next.roster.find? id = some entry := roster ▸ found
      obtain ⟨verdict, made, left⟩ := Discipline.DecidesByPage.judge_congr ⟨engine.roster.made, engine.books⟩
        ⟨next.roster.made, next.books⟩ entry.1 entry.2 action (congrArg Roster.made roster) page
      simp only [access, found, again]
      refine ⟨verdict, ?_, left⟩
      rw [made, roster]

theorem grant_eq (engine : Engine β) (id : TxnId) (action : Action) (object : ObjectId) :
    engine.grant id action object = { engine with books := (engine.grant id action object).books } := by
  cases allowed : (engine.access object id action).1.isAllowed with
  | true =>
      rw [grant_of_allowed allowed]
      exact access_of_allowed allowed
  | false => rw [grant_of_refused allowed]

theorem page_grant_other (engine : Engine β) (id : TxnId) (action : Action)
    (different : object ≠ other) :
    (engine.grant id action object).page other = engine.page other := by
  unfold grant
  split
  · exact engine.page_access_other id action different
  · rfl

omit [Discipline.DecidesByPage β] in
/-- The scene after an access is the scene returned by `Discipline.judge`. -/
theorem scene_access {handle : Handle} {txn : Transaction}
    (found : engine.roster.find? id = some (handle, txn)) (object : ObjectId) (action : Action) :
    Scene.mk (engine.access object id action).2.roster.made (engine.access object id action).2.books =
      (Discipline.judge ⟨engine.roster.made, engine.books⟩ handle txn object action).2 := by
  simp only [access, found]

theorem exists_judged (allowed : (engine.access object id action).1.isAllowed = true) :
    ∃ handle txn, engine.roster.find? id = some (handle, txn) ∧
      (engine.access object id action).2.roster.find? id = some (handle, txn) ∧
      (Discipline.judge ⟨engine.roster.made, engine.books⟩ handle txn object action).1.isAllowed =
        true := by
  cases found : engine.roster.find? id with
  | none =>
      rw [(access_absent found object action).1] at allowed
      contradiction
  | some entry =>
      rw [(access_found found object action).1] at allowed
      refine ⟨entry.1, entry.2, rfl, ?_, allowed⟩
      rw [access_of_allowed ((access_found found object action).1 ▸ allowed)]
      exact found

theorem access_again (allowed : (engine.access object id action).1.isAllowed = true) :
    let next := (engine.access object id action).2
    (next.access object id action).1.isAllowed = true ∧ (next.access object id action).2 = next := by
  intro next
  obtain ⟨handle, txn, found, still, judged⟩ := exists_judged allowed
  obtain ⟨verdict, books⟩ := access_found still object action
  rw [scene_access found object action] at verdict books
  obtain ⟨again, same⟩ := Discipline.DecidesByPage.judge_again judged
  have granted : (next.access object id action).1.isAllowed = true := by rw [verdict, again]
  refine ⟨granted, ?_⟩
  rw [access_of_allowed granted, books, same, ← (access_found found object action).2]

theorem access_swap (different : object ≠ other)
    (first : (engine.access object id action).1.isAllowed = true)
    (second : (engine.access other id action).1.isAllowed = true) :
    ((engine.access object id action).2.access other id action).2.books =
      ((engine.access other id action).2.access object id action).2.books := by
  obtain ⟨handle, txn, found, still, judged⟩ := exists_judged first
  obtain ⟨_, _, again, remains, granted⟩ := exists_judged second
  cases found.symm.trans again
  rw [(access_found still other action).2, scene_access found, (access_found remains object action).2,
    scene_access found]
  exact Discipline.DecidesByPage.judge_swap different judged granted

theorem isAllowed_grant (engine : Engine β) (id : TxnId) (action : Action) (object other : ObjectId) :
    ((engine.grant id action object).access other id action).1.isAllowed =
      (engine.access other id action).1.isAllowed := by
  cases allowed : (engine.access object id action).1.isAllowed with
  | false => rw [grant_of_refused allowed]
  | true =>
      by_cases here : object = other
      · subst here
        rw [grant_of_allowed allowed, allowed]
        exact (access_again allowed).1
      · have roster : (engine.grant id action object).roster = engine.roster := by rw [grant_eq]
        rw [(access_congr roster (engine.page_grant_other id action here) id action).1]

theorem grant_again (engine : Engine β) (id : TxnId) (action : Action) (object : ObjectId) :
    (engine.grant id action object).grant id action object = engine.grant id action object := by
  cases allowed : (engine.access object id action).1.isAllowed with
  | false => rw [grant_of_refused allowed, grant_of_refused allowed]
  | true =>
      obtain ⟨again, same⟩ := access_again allowed
      rw [grant_of_allowed allowed, grant_of_allowed again, same]

theorem grant_swap (engine : Engine β) (id : TxnId) (action : Action) (object other : ObjectId) :
    (engine.grant id action object).grant id action other =
      (engine.grant id action other).grant id action object := by
  by_cases same : object = other
  · rw [same]
  cases first : (engine.access object id action).1.isAllowed with
  | false =>
      rw [grant_of_refused first, grant_of_refused ((isAllowed_grant _ _ _ _ _).trans first)]
  | true =>
      cases second : (engine.access other id action).1.isAllowed with
      | false =>
          rw [grant_of_refused second, grant_of_refused ((isAllowed_grant _ _ _ _ _).trans second)]
      | true =>
          have later := (isAllowed_grant engine id action object other).trans second
          have sooner := (isAllowed_grant engine id action other object).trans first
          rw [grant_of_allowed first] at later ⊢
          rw [grant_of_allowed second] at sooner ⊢
          rw [grant_of_allowed later, grant_of_allowed sooner, access_of_allowed later,
            access_of_allowed sooner, access_swap same first second, access_of_allowed first,
            access_of_allowed second]

instance : RightCommutative (grant (β := β) id action) where
  right_comm engine object other := engine.grant_swap id action object other

/-- Granting an object a second time is idempotent, also after grants of other objects. -/
theorem foldl_grant_concat (engine : Engine β) (member : object ∈ objects) :
    (objects.foldl (grant id action) engine).grant id action object =
      objects.foldl (grant id action) engine := by
  have front : objects.Perm (object :: objects.erase object) := List.perm_cons_erase member
  have twice : (objects ++ [object]).Perm (object :: object :: objects.erase object) :=
    List.perm_append_comm.trans (front.cons object)
  calc (objects.foldl (grant id action) engine).grant id action object
      = (objects ++ [object]).foldl (grant id action) engine := by rw [List.foldl_concat]
    _ = (object :: object :: objects.erase object).foldl (grant id action) engine :=
        twice.foldl_eq engine
    _ = (object :: objects.erase object).foldl (grant id action) engine := by
        rw [List.foldl_cons, List.foldl_cons, grant_again, List.foldl_cons]
    _ = objects.foldl (grant id action) engine := (front.foldl_eq engine).symm

theorem foldl_grant_of_subset (engine : Engine β) {others : List ObjectId} (subset : others ⊆ objects) :
    (objects ++ others).foldl (grant id action) engine = objects.foldl (grant id action) engine := by
  rw [List.foldl_append]
  induction others with
  | nil => rfl
  | cons other rest ih =>
      obtain ⟨member, rest⟩ := List.cons_subset.mp subset
      rw [List.foldl_cons, foldl_grant_concat engine member]
      exact ih rest

/-- The engine after a sequence of grants depends only on the set of granted objects. -/
theorem foldl_grant_congr (engine : Engine β) {others : List ObjectId}
    (same : ∀ object, object ∈ others ↔ object ∈ objects) :
    others.foldl (grant id action) engine = objects.foldl (grant id action) engine := by
  rw [← foldl_grant_of_subset engine fun object => (same object).mpr,
    List.perm_append_comm.foldl_eq engine, foldl_grant_of_subset engine fun object => (same object).mp]

theorem page_foldl_grant (engine : Engine β) (id : TxnId) (action : Action) (objects : List ObjectId)
    (other : ObjectId) :
    (objects.foldl (grant id action) engine).page other =
      if other ∈ objects then (engine.grant id action other).page other else engine.page other := by
  induction objects generalizing engine with
  | nil => rfl
  | cons object rest ih =>
      rw [List.foldl_cons, ih]
      by_cases here : object = other
      · subst here
        simp only [grant_again, List.mem_cons_self, if_true, ite_self]
      · have kept : ((engine.grant id action object).grant id action other).page other =
            (engine.grant id action other).page other := by
          rw [grant_swap, page_grant_other _ _ _ here]
        simp only [List.mem_cons, Ne.symm here, false_or, kept, engine.page_grant_other id action here]

/-- A prefix of individually allowed objects is granted one by one, after which the batch continues
with the remaining objects. -/
theorem exists_accessFrom_append {before : List ObjectId} {verdict : Verdict}
    (sofar : verdict.isAllowed = true)
    (allowed : ∀ object ∈ before, (engine.access object id action).1.isAllowed = true)
    (rest : List ObjectId) :
    ∃ last : Verdict, last.isAllowed = true ∧
      accessFrom verdict engine id action (before ++ rest) =
        accessFrom last (before.foldl (grant id action) engine) id action rest := by
  induction before generalizing engine verdict with
  | nil => exact ⟨verdict, sofar, rfl⟩
  | cons object before ih =>
      obtain ⟨first, others⟩ := List.forall_mem_cons.mp allowed
      have later : ∀ other ∈ before,
          ((engine.grant id action object).access other id action).1.isAllowed = true :=
        fun other member => (isAllowed_grant engine id action object other).trans (others other member)
      obtain ⟨last, granted, same⟩ := ih first later
      refine ⟨last, granted, ?_⟩
      rw [List.foldl_cons, ← same, grant_of_allowed first]
      exact if_pos first

theorem accessAll_of_allowed
    (allowed : ∀ object ∈ objects, (engine.access object id action).1.isAllowed = true) :
    (engine.accessAll objects id action).1.isAllowed = true ∧
      (engine.accessAll objects id action).2 = objects.foldl (grant id action) engine := by
  have unasked : (Verdict.allowed .nothingAsked).isAllowed = true := rfl
  obtain ⟨last, granted, same⟩ := exists_accessFrom_append unasked allowed []
  rw [List.append_nil, accessFrom] at same
  rw [accessAll, same]
  exact ⟨granted, rfl⟩

theorem foldl_grant_eq (engine : Engine β) (id : TxnId) (action : Action) (objects : List ObjectId) :
    objects.foldl (grant id action) engine =
      { engine with books := (objects.foldl (grant id action) engine).books } := by
  induction objects generalizing engine with
  | nil => rfl
  | cons object rest ih =>
      rw [List.foldl_cons, ih, grant_eq]

theorem isAllowed_foldl_grant (engine : Engine β) (id : TxnId) (action : Action)
    (objects : List ObjectId) (object : ObjectId) :
    ((objects.foldl (grant id action) engine).access object id action).1.isAllowed =
      (engine.access object id action).1.isAllowed := by
  induction objects generalizing engine with
  | nil => rfl
  | cons first rest ih => rw [List.foldl_cons, ih, isAllowed_grant]

omit [Discipline.DecidesByPage β] in
theorem exists_first_refused
    (some : ¬ ∀ object ∈ objects, (engine.access object id action).1.isAllowed = true) :
    ∃ before object rest, objects = before ++ object :: rest ∧
      (∀ earlier ∈ before, (engine.access earlier id action).1.isAllowed = true) ∧
      (engine.access object id action).1.isAllowed = false := by
  induction objects with
  | nil => exact absurd (fun _ member => absurd member List.not_mem_nil) some
  | cons first rest ih =>
      cases allowed : (engine.access first id action).1.isAllowed with
      | false => exact ⟨[], first, rest, rfl, fun _ member => absurd member List.not_mem_nil, allowed⟩
      | true =>
          obtain ⟨before, object, after, rfl, granted, refused⟩ :=
            ih fun all => some (List.forall_mem_cons.mpr ⟨allowed, all⟩)
          exact ⟨first :: before, object, after, rfl, List.forall_mem_cons.mpr ⟨allowed, granted⟩,
            refused⟩

/-- A batch evaluates to the first access that is refused, in the engine after the grants before it. -/
theorem accessAll_of_first_refused {before rest : List ObjectId}
    (allowed : ∀ object ∈ before, (engine.access object id action).1.isAllowed = true)
    (refused : (engine.access object id action).1.isAllowed = false) :
    engine.accessAll (before ++ object :: rest) id action =
      (before.foldl (grant id action) engine).access object id action := by
  have unasked : (Verdict.allowed .nothingAsked).isAllowed = true := rfl
  obtain ⟨last, _, same⟩ := exists_accessFrom_append unasked allowed (object :: rest)
  rw [accessAll, same]
  have still := (isAllowed_foldl_grant engine id action before object).trans refused
  exact if_neg (Bool.eq_false_iff.mp still)

theorem accessAll_isAllowed_iff (engine : Engine β) (objects : List ObjectId) (id : TxnId)
    (action : Action) :
    (engine.accessAll objects id action).1.isAllowed = true ↔
      ∀ object ∈ objects, (engine.access object id action).1.isAllowed = true := by
  refine ⟨fun allowed => ?_, fun allowed => (accessAll_of_allowed allowed).1⟩
  by_contra some
  obtain ⟨before, object, rest, rfl, granted, refused⟩ := exists_first_refused some
  rw [accessAll_of_first_refused granted refused, isAllowed_foldl_grant, refused] at allowed
  contradiction

theorem accessAll_congr {others : List ObjectId}
    (allowed : (engine.accessAll objects id action).1.isAllowed = true)
    (same : ∀ object, object ∈ others ↔ object ∈ objects) :
    (engine.accessAll others id action).1.isAllowed = true ∧
      (engine.accessAll others id action).2 = (engine.accessAll objects id action).2 := by
  have granted := (engine.accessAll_isAllowed_iff objects id action).mp allowed
  obtain ⟨again, left⟩ := accessAll_of_allowed fun object member =>
    granted object ((same object).mp member)
  exact ⟨again, by rw [left, (accessAll_of_allowed granted).2, foldl_grant_congr engine same]⟩

/-- Framing of a single access by a batch that does not contain its object: the verdict, the roster
and the counters agree with the access alone, and every page is the one of the access alone or of
the grant. -/
theorem access_foldl_grant {before : List ObjectId} (unasked : object ∉ before) (engine : Engine β)
    (id : TxnId) (action : Action) :
    let alone := engine.access object id action
    let later := (before.foldl (grant id action) engine).access object id action
    later.1 = alone.1 ∧ later.2.roster = alone.2.roster ∧ later.2.counters = alone.2.counters ∧
      ∀ other, later.2.page other =
        if other ∈ before then (engine.grant id action other).page other else alone.2.page other := by
  intro alone later
  have roster : (before.foldl (grant id action) engine).roster = engine.roster := by
    rw [foldl_grant_eq]
  have counters : (before.foldl (grant id action) engine).counters = engine.counters := by
    rw [foldl_grant_eq]
  have page : (before.foldl (grant id action) engine).page object = engine.page object := by
    rw [page_foldl_grant, if_neg unasked]
  obtain ⟨verdict, moved, turned⟩ := access_congr roster page id action
  refine ⟨verdict, moved, ?_, fun other => ?_⟩
  · rw [access_counters, access_counters, verdict, counters]
  · by_cases here : object = other
    · subst here
      rw [if_neg unasked]
      exact turned
    · rw [page_access_other _ id action here, page_foldl_grant, engine.page_access_other id action here]

theorem exists_of_accessAll_refused (refused : (engine.accessAll objects id action).1.isAllowed = false) :
    let batch := engine.accessAll objects id action
    ∃ before object rest, objects = before ++ object :: rest ∧
      (∀ earlier ∈ before, (engine.access earlier id action).1.isAllowed = true) ∧
      (engine.access object id action).1.isAllowed = false ∧
      batch = (engine.accessAll before id action).2.access object id action ∧
      batch.1 = (engine.access object id action).1 ∧
      batch.2.roster = (engine.access object id action).2.roster ∧
      batch.2.counters = (engine.access object id action).2.counters ∧
      ∀ other, batch.2.page other =
        if other ∈ before then (engine.access other id action).2.page other
        else if other = object then (engine.access object id action).2.page object
        else engine.page other := by
  intro batch
  obtain ⟨before, object, rest, rfl, granted, failed⟩ := exists_first_refused fun all =>
    Bool.false_ne_true (refused.symm.trans ((accessAll_isAllowed_iff engine objects id action).mpr all))
  have whole : batch = (before.foldl (grant id action) engine).access object id action :=
    accessAll_of_first_refused granted failed
  have unasked : object ∉ before := fun member =>
    Bool.false_ne_true (failed.symm.trans (granted object member))
  obtain ⟨verdict, roster, counters, page⟩ := access_foldl_grant unasked engine id action
  refine ⟨before, object, rest, rfl, granted, failed, ?_, ?_, ?_, ?_, fun other => ?_⟩
  · rw [whole, (accessAll_of_allowed granted).2]
  · rw [whole, verdict]
  · rw [whole, roster]
  · rw [whole, counters]
  · rw [whole, page]
    by_cases asked : other ∈ before
    · rw [if_pos asked, if_pos asked, grant_of_allowed (granted other asked)]
    · rw [if_neg asked, if_neg asked]
      split
      · rename_i here
        rw [here]
      · rename_i apart
        exact engine.page_access_other id action (Ne.symm apart)

end Engine

namespace Running

def access (running : Running) (object : ObjectId) (id : TxnId) (action : Action) : Verdict × Running :=
  running.act fun engine => engine.access object id action

def accessAll (running : Running) (objects : List ObjectId) (id : TxnId) (action : Action) :
    Verdict × Running :=
  running.act fun engine => engine.accessAll objects id action

def roster (running : Running) : Roster :=
  running.ask fun engine => engine.roster

def page (running : Running) (object : ObjectId) : Page :=
  match running with
  | lock engine => engine.page object
  | timestamp engine => engine.page object
  | validation engine => engine.page object

end Running

/-- A batch is allowed if and only if every one of its objects is allowed individually. An allowed
batch has the same resulting engine as any batch with the same set of objects. A refused batch
splits at its first individually refused object: the verdict, the roster and the counters are those
of that access alone, the pages of the objects before it are those of their individual grants, and
the other pages are those of the refused access. -/
theorem batch_by_objects (running : Running) (objects : List ObjectId) (id : TxnId) (action : Action) :
    let batch := running.accessAll objects id action
    let alone object := running.access object id action
    (batch.1.isAllowed = true ↔ ∀ object ∈ objects, (alone object).1.isAllowed = true) ∧
    (batch.1.isAllowed = true → ∀ others, (∀ object, object ∈ others ↔ object ∈ objects) →
      (running.accessAll others id action).1.isAllowed = true ∧
      (running.accessAll others id action).2 = batch.2) ∧
    (batch.1.isAllowed = false → ∃ before object rest,
      objects = before ++ object :: rest ∧
      (∀ earlier ∈ before, (alone earlier).1.isAllowed = true) ∧
      (alone object).1.isAllowed = false ∧
      batch = (running.accessAll before id action).2.access object id action ∧
      batch.1 = (alone object).1 ∧
      batch.2.roster = (alone object).2.roster ∧
      batch.2.counters = (alone object).2.counters ∧
      ∀ other, batch.2.page other =
        if other ∈ before then (alone other).2.page other
        else if other = object then (alone object).2.page object
        else running.page other) := by
  intro batch alone
  refine ⟨?_, fun allowed others same => ?_, fun refused => ?_⟩
  · cases running <;> exact Engine.accessAll_isAllowed_iff _ objects id action
  · cases running with
    | lock engine | timestamp engine | validation engine =>
        obtain ⟨again, left⟩ := Engine.accessAll_congr allowed same
        refine ⟨again, ?_⟩
        simp only [batch, Running.accessAll, Running.act, left]
  · cases running with
    | lock engine | timestamp engine | validation engine =>
        obtain ⟨before, object, rest, split, granted, failed, whole, kept⟩ :=
          Engine.exists_of_accessAll_refused refused
        refine ⟨before, object, rest, split, granted, failed, ?_, kept⟩
        simp only [batch, Running.accessAll, Running.access, Running.act, whole]

/-- A refused batch is not undone: the exclusive lock on `x` granted before the refusal of `y`
persists. -/
example :
    let engine := [Move.begin, .begin, .access "y" 1 .write].foldl Engine.after
      (Engine.fresh : Engine Locking)
    let batch := engine.accessAll ["x", "y", "z"] 2 .write
    batch.1.isAllowed = false ∧
      ["x", "y", "z"].map (fun object => (batch.2.books.table.holders object).map Holder.id) =
        [[2], [1], []] := by
  decide

end Isolation
