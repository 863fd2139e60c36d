import DataAccess.Filter.Criterion.Grammar
import DataAccess.Notify
import DataAccess.Query.Basic

/-!
# Plans

A plan describes a query that is not asked yet: where it starts and the steps that complete it.
Every call that adds to a plan gives a new plan, so that a plan can be continued in several ways.

- `Source`, `Step`, `Plan`: the description.
- `Plan.sortBy`, `Plan.thenBy`, `Plan.filter`, `Plan.select`, `Plan.expand`, `Plan.slice`: the
  steps.
- `Plan.toQuery`, `Plan.toCountQuery`: the query for the rows, and the query for their number.
-/

namespace DataAccess

/-- Where a plan starts. -/
inductive Source where
  /-- all rows of a resource -/
  | resource (name : String)
  /-- a prepared query, all clauses of which are kept -/
  | query (q : Query)

namespace Source

/-- The query that a plan completes. -/
def toQuery : Source → Query
  | resource name => .ofResource name
  | query q => q

/-- The related data that is delivered from the start. -/
def expanded : Source → List String
  | resource _ => []
  | query q => q.expanded

/-- The resource that is asked. -/
def resourceName : Source → Option String
  | resource name => some name
  | query q => q.resource

end Source

/-- One step of a plan. Lists are kept as they will be written. -/
inductive Step where
  | orderBy (clause : String)
  | restrict (p : Predicate)
  | select (fields : String)
  | expand (paths : String)
  | skip (count : Nat)
  | take (count : Nat)

namespace Step

/-- Takes a step. -/
def apply : Step → Query → Query
  | orderBy clause, q => q.orderBy clause
  | restrict p, q => q.restrict p
  | select fields, q => q.selectText fields
  | expand paths, q => q.expandText paths
  | skip count, q => { q with skip := some count }
  | take count, q => { q with take := some count }

/-- Whether the number of rows can depend on a step. Order, selection and cuts are left out when
rows are only counted. -/
def countsFor : Step → Bool
  | restrict _ | expand _ => true
  | orderBy _ | select _ | skip _ | take _ => false

end Step

/-- A query that is not asked yet. -/
structure Plan where
  source : Source
  /-- whether the number of all rows is to be delivered with the rows -/
  countTotal : Bool := false
  escalation : Escalation := {}
  steps : List Step := []

/-- A sort key as it is written. -/
def sortClause (field : String) (descending : Bool) : String :=
  if descending then field ++ " desc" else field

/-- A list of paths as it is written. -/
def listText (paths : List String) : String :=
  String.ofList (Text.join [','] (paths.map String.toList))

/-- A path without its last name; a path of one name has no parent. -/
def parentPath? (path : String) : Option String :=
  match path.toList.reverse.dropWhile (· ≠ '.') with
  | [] => none
  | _ :: before => some (String.ofList before.reverse)

/-- The requested paths that are not among the existing ones, each once in order of first
occurrence, and then the existing ones. -/
def mergePaths (existing requested : List String) : List String :=
  requested.foldl (fun merged path =>
    if path ∈ merged ∨ path ∈ existing then merged else merged ++ [path]) [] ++ existing

namespace Plan

/-- A plan with further steps. -/
def andThen (plan : Plan) (steps : List Step) : Plan := { plan with steps := plan.steps ++ steps }

/-- Sorts by a field, after all keys so far. -/
def sortBy (plan : Plan) (field : String) (descending : Bool) : Plan :=
  plan.andThen [.orderBy (sortClause field descending)]

/-- Sorts by a further field. The last step has to be one that sorts. -/
def thenBy (plan : Plan) (field : String) (descending : Bool) : Except Error Plan :=
  match plan.steps.getLast? with
  | some (.orderBy clause) =>
    .ok { plan with
      steps := plan.steps.dropLast ++ [.orderBy (clause ++ "," ++ sortClause field descending)] }
  | _ => .error .noSortBefore

/-- Restricts the rows by a predicate. -/
def restrict (plan : Plan) (p : Predicate) : Plan := plan.andThen [.restrict p]

/-- Restricts the rows by a criterion. -/
def filterBy (plan : Plan) (c : Criterion) : Except Error Plan :=
  match c.compile with
  | .ok p => .ok (plan.restrict p)
  | .error e => .error e

/-- Restricts the rows by a criterion in the array grammar. -/
def filter (plan : Plan) (criteria : Value) : Except Error Plan :=
  match Predicate.ofCriteria criteria with
  | .ok p => .ok (plan.restrict p)
  | .error e => .error e

/-- Delivers related data: each requested path once, and what the source delivers after them. -/
def expand (plan : Plan) (paths : List String) : Plan :=
  plan.andThen [.expand (listText (mergePaths plan.source.expanded paths))]

/-- Delivers only some parts of a row. A part of related data needs that data delivered. -/
def select (plan : Plan) (fields : List String) : Plan :=
  let selected := plan.andThen [.select (listText fields)]
  match fields.filterMap parentPath? with
  | [] => selected
  | parents => selected.expand parents

/-- Delivers a stretch of the rows. Zero stands for no limit. -/
def slice (plan : Plan) (skip take : Option Nat) : Plan :=
  let given := fun count : Option Nat => (count.filter fun n => 0 < n).toList
  plan.andThen ((given skip).map .skip ++ (given take).map .take)

/-- The query that some steps make of the source. -/
def build (plan : Plan) (steps : List Step) : Query :=
  steps.foldl (fun q step => step.apply q) plan.source.toQuery

/-- The query for the rows. -/
def toQuery (plan : Plan) : Query :=
  let q := plan.build plan.steps
  if plan.countTotal then { q with countTotal := true } else q

/-- The query for the number of rows. It delivers no rows. -/
def toCountQuery (plan : Plan) : Query :=
  { plan.build (plan.steps.filter Step.countsFor) with countTotal := true, take := some 0 }

/-! ## Lemmas -/

@[simp] theorem source_andThen (plan : Plan) (steps : List Step) :
    (plan.andThen steps).source = plan.source := rfl

@[simp] theorem steps_andThen (plan : Plan) (steps : List Step) :
    (plan.andThen steps).steps = plan.steps ++ steps := rfl

theorem andThen_nil (plan : Plan) : plan.andThen [] = plan :=
  congrArg (fun steps => { plan with steps }) (List.append_nil _)

theorem andThen_andThen (plan : Plan) (before after : List Step) :
    (plan.andThen before).andThen after = plan.andThen (before ++ after) :=
  congrArg (fun steps => { plan with steps }) (List.append_assoc _ _ _)

/-- A further key goes into the last step, which has to be one that sorts. -/
theorem thenBy_eq_ok_iff {plan next : Plan} {field : String} {descending : Bool} :
    plan.thenBy field descending = .ok next ↔
      ∃ before clause, plan.steps = before ++ [.orderBy clause] ∧
        next = { plan with
          steps := before ++ [.orderBy (clause ++ "," ++ sortClause field descending)] } := by
  constructor
  · intro h
    unfold thenBy at h
    split at h
    · rename_i clause hlast
      obtain ⟨before, hsteps⟩ := List.getLast?_eq_some_iff.1 hlast
      rw [hsteps, List.dropLast_concat] at h
      cases h
      exact ⟨before, clause, hsteps, rfl⟩
    · cases h
  · rintro ⟨before, clause, hsteps, rfl⟩
    unfold thenBy
    rw [hsteps, List.getLast?_concat, List.dropLast_concat]

/-- What is selected is of the rows alone, or selecting is a request for its parents as well. -/
theorem select_cases (plan : Plan) (fields : List String) :
    (fields.filterMap parentPath? = [] ∧
      plan.select fields = plan.andThen [.select (listText fields)]) ∨
    (fields.filterMap parentPath? ≠ [] ∧
      plan.select fields =
        (plan.andThen [.select (listText fields)]).expand (fields.filterMap parentPath?)) := by
  unfold select
  dsimp only
  split
  · rename_i hnone
    exact .inl ⟨hnone, rfl⟩
  · rename_i hsome
    exact .inr ⟨hsome, rfl⟩

/-- Further steps act on what the first steps made. -/
theorem build_append (plan : Plan) (before after : List Step) :
    plan.build (before ++ after) =
      after.foldl (fun q step => step.apply q) (plan.build before) :=
  List.foldl_append

end Plan

end DataAccess
