import DataAccess.Plan.Basic
import DataAccess.Schema

/-!
# Stores

A store gives access to one resource of a service: it loads rows, looks them up by key and
changes them.

- `Store`, `Policy`: what a store is made of.
- `Setup.build`: makes a store, if nothing required is missing.
- `LoadRequest`: what rows a caller wants.
- `Store.plan`, `Store.prepare`, `Store.loadPlan`: the plan that a request leads to.
- `Store.keyPredicate`: the condition that a row has a key.
-/

namespace DataAccess

/-- How a store works. -/
structure Policy where
  /-- every change is saved at once -/
  saveAtOnce : Bool := false
  /-- tracked entities are preferred to saved rows -/
  preferTracked : Bool := true
  deriving DecidableEq

/-- Access to one resource of a service. -/
structure Store where
  resource : String
  /-- the query that loading starts from -/
  query : Option Query := none
  /-- the key, where the schema of the service says nothing -/
  key : Option Key := none
  policy : Policy := {}
  escalation : Escalation := {}

/-- What a store is to be made of. -/
structure Setup where
  /-- whether a service was given -/
  connected : Bool := true
  resource : Option String := none
  query : Option Query := none
  key : Option Key := none
  policy : Policy := {}
  escalation : Escalation := {}

/-- Makes a store. The service is asked for before the resource. -/
def Setup.build (setup : Setup) : Except Error Store :=
  if setup.connected then
    match setup.resource with
    | some resource =>
      .ok { resource, query := setup.query, key := setup.key, policy := setup.policy,
            escalation := setup.escalation }
    | none => .error (.configuration (.missingArgument "resourceName"))
  else .error (.configuration (.missingArgument "entityManager"))

/-- A sort key as a caller states it. -/
structure SortKey where
  selector : String
  descending : Bool := false
  deriving DecidableEq

/-- The rows that a caller wants. -/
structure LoadRequest where
  /-- a criterion in the array grammar -/
  filter : Option Value := none
  sort : List SortKey := []
  select : List String := []
  expand : List String := []
  skip : Option Nat := none
  take : Option Nat := none
  /-- whether the number of all rows is wanted -/
  countTotal : Bool := false
  /-- a prepared query to start from in place of that of the store -/
  prepared : Option Query := none
  deriving Inhabited

namespace Store

/-- The name of the type of the entities behind a store. -/
def typeName? (store : Store) (schema : Schema) : Option String :=
  schema.typeNameServedBy? store.resource

/-- The key of the entities behind a store. -/
def key? (store : Store) (schema : Schema) : Option Key :=
  if schema.isEmpty then store.key
  else
    match (schema.typeServedBy? store.resource).bind fun type => Key.ofFields? type.keyFields with
    | some key => some key
    | none => store.key

/-- The key, which looking up by key needs. -/
def keyOrError (store : Store) (schema : Schema) : Except Error Key :=
  match store.key? schema with
  | some key => .ok key
  | none => .error (.configuration .keyRequired)

/-- The type, which every change needs. -/
def typeOrError (store : Store) (schema : Schema) : Except Error String :=
  match store.typeName? schema with
  | some type => .ok type
  | none => .error (.configuration (.resourceWithoutType store.resource))

/-- The key value of a record. -/
def keyOf (store : Store) (schema : Schema) (values : Record) : Except Error Value :=
  match store.keyOrError schema with
  | .ok key => .ok (key.valueOf values)
  | .error e => .error e

/-- The query that a store starts from. -/
def ownQuery (store : Store) : Query :=
  match store.query with
  | some q => q.retarget store.resource
  | none => .ofResource store.resource

/-- Where the plan for a request starts. -/
def sourceOf (store : Store) (request : LoadRequest) : Source :=
  match request.prepared, store.query with
  | some q, _ => .query (q.retarget store.resource)
  | none, some _ => .query store.ownQuery
  | none, none => .resource store.resource

/-- The plan that a request starts with: its source and the related data. -/
def plan (store : Store) (request : LoadRequest) : Plan :=
  let start : Plan :=
    { source := store.sourceOf request, countTotal := request.countTotal,
      escalation := store.escalation }
  if request.expand.isEmpty then start else start.expand request.expand

/-- The plan with the filter of a request. -/
def prepare (store : Store) (request : LoadRequest) : Except Error Plan :=
  match request.filter with
  | none => .ok (store.plan request)
  | some criteria => (store.plan request).filter criteria

/-- A plan with sort keys. -/
def sortPlan (plan : Plan) : List SortKey → Except Error Plan
  | [] => .ok plan
  | first :: rest =>
    rest.foldlM (fun plan key => plan.thenBy key.selector key.descending)
      (plan.sortBy first.selector first.descending)

/-- The whole plan for a request. -/
def loadPlan (store : Store) (request : LoadRequest) : Except Error Plan :=
  match store.prepare request with
  | .error e => .error e
  | .ok plan =>
    match sortPlan plan request.sort with
    | .error e => .error e
    | .ok plan =>
      let plan := if request.select.isEmpty then plan else plan.select request.select
      .ok (plan.slice request.skip request.take)

/-- The condition that a row has a key. Of a key of several fields, a field that the given value
lacks has to be null. -/
def keyPredicate (key : Key) (wanted : Value) : Predicate :=
  match key with
  | .single name => .comparison name .eq wanted
  | .composite names =>
    .all (names.map fun name => .comparison name .eq ((wanted.field? name).getD .null))

end Store

end DataAccess
