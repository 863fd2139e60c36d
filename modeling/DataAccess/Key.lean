import DataAccess.Value.Equality

/-!
# Keys

The key of a record is what tells it apart from the other records of its type: the value of one
field, or the values of several.

- `Key`: which fields.
- `Key.ofFields?`: the key that a list of fields makes up.
- `Key.valueOf`: the key value of a record.
- `Key.valueOf_congr`: it depends on the key fields alone.
-/

namespace DataAccess

/-- The fields that identify a record. -/
inductive Key where
  /-- the value of one field -/
  | single (name : String)
  /-- the values of several fields, together with their names -/
  | composite (names : List String)
  deriving DecidableEq

namespace Key

/-- The key that a list of fields makes up; no fields make up none. -/
def ofFields? : List String → Option Key
  | [] => none
  | [name] => some (single name)
  | names => some (composite names)

/-- The fields of a key. -/
def fields : Key → List String
  | single name => [name]
  | composite names => names

/-- The key value of a record. A missing field counts as null. -/
def valueOf : Key → Record → Value
  | single name, r => r.value name
  | composite names, r => .object (Record.ofFields (names.map fun name => (name, r.value name)))

/-- Records that agree on the key fields have the same key value. -/
theorem valueOf_congr (key : Key) {r s : Record}
    (h : ∀ name ∈ key.fields, r.value name = s.value name) :
    key.valueOf r = key.valueOf s := by
  cases key with
  | single name => exact h name (by simp [fields])
  | composite names =>
    have hm : names.map (fun name => (name, r.value name)) =
        names.map (fun name => (name, s.value name)) :=
      List.map_congr_left fun name hn => by rw [h name hn]
    rw [valueOf, valueOf, hm]

end Key

end DataAccess
