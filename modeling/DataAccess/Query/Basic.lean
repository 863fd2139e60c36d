import DataAccess.Filter.Predicate
import DataAccess.Text.Blank

/-!
# Queries

A query names a resource and says which of its rows are wanted, in which order, with which related
data, which parts of them and which stretch of the result.

- `Query`, `SortItem`: the clauses.
- `Query.restrict`, `Query.orderBy`, `Query.expandText`, `Query.selectText`: one clause added
  or replaced, the last three from written lists.
- `Query.admits`: the rows that the filter of a query lets through.
-/

namespace DataAccess

/-- One key of the order of a result. -/
structure SortItem where
  /-- what to sort by -/
  path : String
  /-- greatest first -/
  descending : Bool
  deriving DecidableEq

/-- A request for rows of a resource. -/
structure Query where
  /-- the resource asked -/
  resource : Option String := none
  /-- the condition on rows -/
  filter : Option Predicate := none
  /-- the keys of the order, the most important first -/
  order : List SortItem := []
  /-- related data to deliver with the rows -/
  expand : Option (List String) := none
  /-- the parts of a row to deliver; all of them if empty -/
  select : List String := []
  /-- how many rows to leave out at the start -/
  skip : Option Nat := none
  /-- how many rows to deliver at most -/
  take : Option Nat := none
  /-- whether to deliver the number of rows that the filter lets through -/
  countTotal : Bool := false
  deriving Inhabited

/-- Reads one written sort key: a path and, after it, the word that asks for the descending
order. -/
def SortItem.ofText? (text : List Char) : Option SortItem :=
  match Text.words text with
  | [] => none
  | [path] => some ⟨String.ofList path, false⟩
  | path :: direction :: _ =>
    some ⟨String.ofList path, Text.sameBasic direction "desc".toList⟩

/-- Reads a comma separated list of sort keys. -/
def SortItem.listOfText (clause : String) : List SortItem :=
  (Text.split ',' clause.toList).filterMap SortItem.ofText?

/-- The entries of a comma separated list of paths. -/
def pathsOfText (list : String) : List String := (Text.items list.toList).map String.ofList

namespace Query

/-- All rows of a resource. -/
def ofResource (name : String) : Query := { resource := some name }

/-- The same request to another resource. -/
def retarget (q : Query) (name : String) : Query := { q with resource := some name }

/-- A further condition on rows. -/
def restrict (q : Query) (p : Predicate) : Query :=
  { q with
    filter := some (match q.filter with
      | none => p
      | some old => old.and p) }

/-- Further keys of the order, less important than those before. -/
def orderBy (q : Query) (clause : String) : Query :=
  { q with order := q.order ++ SortItem.listOfText clause }

/-- Other related data; none if the list is empty. -/
def expandText (q : Query) (list : String) : Query :=
  { q with
    expand := match pathsOfText list with
      | [] => none
      | path :: rest => some (path :: rest) }

/-- Other parts of a row. -/
def selectText (q : Query) (list : String) : Query := { q with select := pathsOfText list }

/-- The related data to deliver. -/
def expanded (q : Query) : List String := q.expand.getD []

/-- Whether the filter lets a row through. A query without a filter lets every row through. -/
def admits (q : Query) (row : Value) : Bool :=
  match q.filter with
  | none => true
  | some p => p.holds row

/-! ## Lemmas -/

@[simp] theorem admits_restrict (q : Query) (p : Predicate) (row : Value) :
    (q.restrict p).admits row = (q.admits row && p.holds row) := by
  unfold admits restrict
  cases q.filter <;> simp

end Query

end DataAccess
