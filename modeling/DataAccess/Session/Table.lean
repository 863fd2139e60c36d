import DataAccess.Entity

/-!
# Tables of saved rows

The saved rows of one type, in the order in which they came. Rows are found by their key values.

- `Table.find?`: the first row with a key value.
- `Table.put`: a row in the place of the first row with its key value, or after all others.
- `Table.remove`: a table without the first row with a key value.
- `Table.save`: what saving an entity does to the table of its type.
-/

namespace DataAccess

/-- The saved rows of one type. -/
abbrev Table := List Record

namespace Table

/-- The first row with a key value. -/
def find? (key : Key) (wanted : Value) : Table → Option Record
  | [] => none
  | row :: rest => if (key.valueOf row).same wanted then some row else find? key wanted rest

/-- A row in the place of the first row with its key value, or after all others. -/
def put (key : Key) (new : Record) : Table → Table
  | [] => [new]
  | row :: rest =>
    if (key.valueOf row).same (key.valueOf new) then new :: rest else row :: put key new rest

/-- A table without the first row with a key value. -/
def remove (key : Key) (gone : Value) : Table → Table
  | [] => []
  | row :: rest => if (key.valueOf row).same gone then rest else row :: remove key gone rest

/-- What saving an entity does to the table of its type. -/
def save (key : Key) (e : Entity) (table : Table) : Table :=
  match e.state with
  | .added | .modified => put key e.values table
  | .deleted => remove key (key.valueOf e.values) table
  | .unchanged | .detached => table

/-! ## Lemmas -/

@[simp] theorem find?_nil (key : Key) (wanted : Value) : find? key wanted [] = none := rfl

/-- A row that was put is found. -/
@[simp] theorem find?_put_self (key : Key) (new : Record) (table : Table) :
    find? key (key.valueOf new) (put key new table) = some new := by
  induction table with
  | nil => simp [put, find?]
  | cons row rest ih =>
    unfold put
    split
    · simp [find?]
    · rename_i h
      simp [find?, h, ih]

end Table

end DataAccess
