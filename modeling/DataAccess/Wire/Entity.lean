import DataAccess.Entity
import DataAccess.Schema
import DataAccess.Wire.Fields

/-!
# Entities and schemas as values

The exchange form of entities, keys, entity types and schemas. The form of an entity itself is
`Entity.toValue`, which the unit of work also sorts by.

- `Entity.ofValue?`, `Entity.State.ofValue?`: read an entity and a state.
- `Key.toValue`, `Key.ofValue?`: one name for a key of one field, a list of names for a key of
  several.
- `EntityType.toValue`, `Schema.toValue` and their readers.
- `savedToValue`, `savedOfValue?`: the entities that were saved.
-/

namespace DataAccess

/-- Reads a state. -/
def Entity.State.ofValue? (v : Value) : Option Entity.State := do
  let name ← v.variant?
  [unchanged, added, modified, deleted, detached].find? (·.name = name)

/-- The exchange form of a state. -/
def Entity.State.toValue (state : Entity.State) : Value := .string state.name

/-- Reads an entity. -/
def Entity.ofValue? (v : Value) : Option Entity := do
  let fields ← v.fields? ["entity_type", "values", "state"] 3
  let type ← fields.required "entity_type" Value.asText?
  let values ← fields.required "values" Value.asRecord?
  let state ← fields.required "state" Entity.State.ofValue?
  return { type, values, state }

/-- The exchange form of a key. -/
def Key.toValue : Key → Value
  | single name => .string name
  | composite names => .texts names

/-- Reads a key. -/
def Key.ofValue? : Value → Option Key
  | .string name => some (single name)
  | v => v.asTexts?.map composite

/-- The exchange form of an entity type. -/
def EntityType.toValue (type : EntityType) : Value :=
  .ofFields [("name", .string type.name), ("key_properties", .texts type.keyFields)]

/-- Reads an entity type. -/
def EntityType.ofValue? (v : Value) : Option EntityType := do
  let fields ← v.fields? ["name", "key_properties"] 2
  let name ← fields.required "name" Value.asText?
  let keyFields ← fields.required "key_properties" Value.asTexts?
  return ⟨name, keyFields⟩

/-- The exchange form of a map with names as keys. -/
def Keyed.toValue {ν : Type} (write : ν → Value) (t : Keyed String ν) : Value :=
  .ofFields (t.entries.map fun (name, v) => (name, write v))

/-- Reads a map with names as keys. -/
def Keyed.ofValue? {ν : Type} (read : Value → Option ν) (v : Value) : Option (Keyed String ν) := do
  let fields ← v.asRecord?
  fields.foldlM (fun t field => (read field.2).map (t.insert field.1)) .empty

/-- The exchange form of a schema. -/
def Schema.toValue (schema : Schema) : Value :=
  .ofFields
    [("entity_types", schema.types.toValue EntityType.toValue),
     ("resource_names", schema.resources.toValue .string)]

/-- Reads a schema. -/
def Schema.ofValue? (v : Value) : Option Schema := do
  let fields ← v.fields? ["entity_types", "resource_names"] 2
  let types ← fields.required "entity_types" (Keyed.ofValue? EntityType.ofValue?)
  let resources ← fields.required "resource_names" (Keyed.ofValue? Value.asText?)
  return ⟨types, resources⟩

/-- The exchange form of the entities that were saved. -/
def savedToValue (entities : List Entity) : Value :=
  .ofFields [("entities", .array (entities.map Entity.toValue))]

/-- Reads the entities that were saved. -/
def savedOfValue? (v : Value) : Option (List Entity) := do
  let fields ← v.fields? ["entities"] 1
  fields.required "entities" (Value.asList? Entity.ofValue?)

end DataAccess
