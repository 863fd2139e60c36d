import DataAccess.Plan.Execution
import DataAccess.Session.Basic
import DataAccess.Store.Basic

/-!
# What stores do

The operations of a store on a session. Failures of the session are told to the listeners of the
store; a missing entity is told as such; what is wrong with a request is not told to anyone.

- `Store.load`, `Store.count`, `Store.findRow`: read.
- `Store.findEntity`: the entity that a change is about.
- `Store.insert`, `Store.update`, `Store.remove`: change; saved at once, or kept for later, as the
  policy says.
- `Store.commit`: saves.
-/

namespace DataAccess

namespace Store

/-- Loads the rows that a request asks for. -/
def load (store : Store) (request : LoadRequest) : Action Session Loaded := do
  let plan ← Action.ofExcept (store.loadPlan request)
  plan.load Session.execute

/-- The number of rows that a request asks for, before any cut. -/
def count (store : Store) (request : LoadRequest) : Action Session Nat := do
  let plan ← Action.ofExcept (store.prepare request)
  plan.count Session.execute

/-- The first row with a key, asked of the service. -/
def findRow (store : Store) (wanted : Value) : Action Session (Option Value) := do
  let schema ← Action.inspect Session.schema
  let key ← Action.ofExcept (store.keyOrError schema)
  let response ← store.escalation.guard
    (Action.serve (Session.execute (store.ownQuery.restrict (keyPredicate key wanted))))
  return response.rows.head?

/-- The entity with a key. -/
def findEntity (store : Store) (wanted : Value) : Action Session Entity := do
  let schema ← Action.inspect Session.schema
  let type ← Action.ofExcept (store.typeOrError schema)
  let found ← store.escalation.guard
    (Action.serve (Session.fetch type wanted store.policy.preferTracked))
  match found with
  | some e => return e
  | none => do
    store.escalation.tell .notFound
    throw .notFound

/-- Saves the given entities, or all pending ones if none are given. -/
def commit (store : Store) (entities : List Entity) : Action Session (List Entity) :=
  store.escalation.guard (Action.serve (Session.save entities))

/-- Makes a new entity. Gives the values as they were given and the key of the entity. -/
def insert (store : Store) (values : Record) : Action Session (Record × Value) := do
  let schema ← Action.inspect Session.schema
  let type ← Action.ofExcept (store.typeOrError schema)
  let e ← Action.serve (Session.create type values)
  if store.policy.saveAtOnce then
    let saved ← store.commit [e]
    let key ← Action.ofExcept (store.keyOf schema (saved.headD e).values)
    return (values, key)
  else
    let key ← Action.ofExcept (store.keyOf schema e.values)
    return (values, key)

/-- Sets fields of the entity with a key. Gives the key of the entity afterwards, as far as it is
saved, and the values. -/
def update (store : Store) (wanted : Value) (values : Record) :
    Action Session (Value × Record) := do
  let e ← store.findEntity wanted
  let e := e.setFields values
  if store.policy.saveAtOnce then
    let saved ← store.commit [e]
    match saved.head? with
    | some first => do
      let schema ← Action.inspect Session.schema
      let key ← Action.ofExcept (store.keyOf schema first.values)
      return (key, values)
    | none => return (wanted, values)
  else
    Action.serve (Session.attach e)
    return (wanted, values)

/-- Removes the entity with a key. -/
def remove (store : Store) (wanted : Value) : Action Session Value := do
  let e ← store.findEntity wanted
  let e := e.markDeleted
  if store.policy.saveAtOnce then
    let _ ← store.commit [e]
    return wanted
  else
    Action.serve (Session.attach e)
    return wanted

end Store

end DataAccess
