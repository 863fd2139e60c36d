import DataAccess.Key
import DataAccess.Keyed

/-!
# Schemas

A schema lists entity types with their key fields, and which resource serves which type.

- `EntityType`, `Schema`: the description.
- `Schema.add`: makes a type and its resource known.
- `Schema.typeServedBy?`, `Schema.keyOf?`: the type behind a resource, the key of a type.
-/

namespace DataAccess

/-- A type of entities. -/
structure EntityType where
  name : String
  /-- the fields of the key -/
  keyFields : List String
  deriving DecidableEq

/-- The entity types that are known and the resources that serve them. -/
structure Schema where
  /-- the types by their names -/
  types : Keyed String EntityType := .empty
  /-- the name of the type that a resource serves, by the name of the resource -/
  resources : Keyed String String := .empty
  deriving Inhabited

namespace Schema

/-- Whether no type is known. -/
def isEmpty (schema : Schema) : Bool := schema.types.isEmpty

/-- Makes a type known, served by a resource. -/
def add (schema : Schema) (type : EntityType) (resource : String) : Schema :=
  { types := schema.types.insert type.name type
    resources := schema.resources.insert resource type.name }

/-- The name of the type that a resource serves. -/
def typeNameServedBy? (schema : Schema) (resource : String) : Option String :=
  schema.resources.get? resource

/-- The type that a resource serves. -/
def typeServedBy? (schema : Schema) (resource : String) : Option EntityType :=
  (schema.typeNameServedBy? resource).bind schema.types.get?

/-- The key of a type. A type without key fields has none. -/
def keyOf? (schema : Schema) (type : String) : Option Key :=
  (schema.types.get? type).bind fun t => Key.ofFields? t.keyFields

end Schema

end DataAccess
