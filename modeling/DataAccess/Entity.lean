import DataAccess.Key
import DataAccess.Value.Text

/-!
# Entities

An entity is a record of a type together with what a unit of work has done to it since it was
saved last.

- `Entity`, `Entity.State`: the record and what was done.
- `Entity.setField`, `Entity.markDeleted`, `Entity.accepted`: the changes of state.
- `Entity.toValue`: the entity as a value; pending entities are saved in the order of its text.
-/

namespace DataAccess

/-- What a unit of work has done to an entity. -/
inductive Entity.State where
  /-- nothing -/
  | unchanged
  /-- the entity is new -/
  | added
  /-- fields were set -/
  | modified
  /-- the entity is to be removed -/
  | deleted
  /-- the unit of work no longer looks after the entity -/
  | detached
  deriving DecidableEq, Inhabited

/-- A record under the care of a unit of work. -/
structure Entity where
  /-- the name of its type -/
  type : String
  values : Record
  state : Entity.State := .unchanged
  deriving DecidableEq, Inhabited

namespace Entity

namespace State

/-- Whether there is something to save. -/
def isPending : State → Bool
  | added | modified | deleted => true
  | unchanged | detached => false

/-- The state after a field was set. -/
def afterWrite : State → State
  | unchanged => modified
  | state => state

/-- The state after a removal. A new entity is forgotten: there is nothing to remove. -/
def afterRemoval : State → State
  | added => detached
  | _ => deleted

/-- The state after saving. -/
def afterSave : State → State
  | deleted | detached => detached
  | _ => unchanged

/-- The name of a state. -/
def name : State → String
  | unchanged => "Unchanged"
  | added => "Added"
  | modified => "Modified"
  | deleted => "Deleted"
  | detached => "Detached"

@[simp] theorem isPending_afterSave (state : State) : state.afterSave.isPending = false := by
  cases state <;> rfl

end State

/-- Whether there is something to save. -/
def isPending (e : Entity) : Bool := e.state.isPending

/-- Sets a field. -/
def setField (e : Entity) (name : String) (value : Value) : Entity :=
  { e with values := e.values.insert name value, state := e.state.afterWrite }

/-- Sets several fields, one after the other. -/
def setFields (e : Entity) (fields : List (String × Value)) : Entity :=
  fields.foldl (fun e field => e.setField field.1 field.2) e

/-- Marks an entity for removal. -/
def markDeleted (e : Entity) : Entity := { e with state := e.state.afterRemoval }

/-- The entity after it was saved. -/
def accepted (e : Entity) : Entity := { e with state := e.state.afterSave }

/-- The entity as a value. -/
def toValue (e : Entity) : Value :=
  .object [("entity_type", .string e.type), ("state", .string e.state.name),
    ("values", .object e.values)]

/-! ## Lemmas -/

@[simp] theorem type_setFields (e : Entity) (fields : List (String × Value)) :
    (e.setFields fields).type = e.type := by
  induction fields generalizing e with
  | nil => rfl
  | cons field fields ih => exact ih _

/-- Setting fields lays them over the record. -/
@[simp] theorem values_setFields (e : Entity) (fields : List (String × Value)) :
    (e.setFields fields).values = e.values.overlay fields := by
  induction fields generalizing e with
  | nil => rfl
  | cons field fields ih => exact ih _

/-- Setting at least one field changes the state once. -/
theorem state_setFields (e : Entity) {fields : List (String × Value)} (h : fields ≠ []) :
    (e.setFields fields).state = e.state.afterWrite := by
  cases fields with
  | nil => exact absurd rfl h
  | cons field fields =>
    have hgen : ∀ (fields : List (String × Value)) (e : Entity),
        e.state.afterWrite = e.state → (e.setFields fields).state = e.state := by
      intro fields
      induction fields with
      | nil => intros; rfl
      | cons field fields ih =>
        intro e he
        have hs : (e.setField field.1 field.2).state = e.state := he
        exact (ih (e.setField field.1 field.2) (by rw [hs]; exact he)).trans hs
    refine hgen fields (e.setField field.1 field.2) ?_
    show e.state.afterWrite.afterWrite = e.state.afterWrite
    cases e.state <;> rfl

/-- An entity that counts as unchanged after fields were set is the same as before: no field was
set. -/
theorem setFields_eq_self {e : Entity} {fields : List (String × Value)}
    (h : (e.setFields fields).state = .unchanged) : e.setFields fields = e := by
  cases fields with
  | nil => rfl
  | cons field rest =>
    rw [state_setFields e (List.cons_ne_nil field rest)] at h
    cases he : e.state <;> rw [he] at h <;> cases h

/-- No entity counts as unchanged after its removal. -/
theorem state_markDeleted_ne (e : Entity) : e.markDeleted.state ≠ .unchanged := by
  show e.state.afterRemoval ≠ .unchanged
  cases e.state <;> decide

end Entity

end DataAccess
