import DataAccess.Text.Pieces
import DataAccess.Value.Basic

/-!
# Paths into records

A path names a value inside a record by the fields to follow, written with points between them.

- `Path`: the names to follow; `Path.ofText` reads a written path.
- `Value.atPath`: the value at a path, null where the path leads nowhere.
- `Record.setPath`: writes a value at a path and makes the objects on the way.
- `Record.pick`: only what stands at the given paths.
- `Value.follow_cons`: a path is followed name by name.
-/

namespace DataAccess

/-- The names to follow, outermost first. -/
abbrev Path := List String

/-- The path that a text with points between the names stands for. -/
def Path.ofText (text : String) : Path := (Text.split '.' text.toList).map String.ofList

namespace Value

/-- The value at the end of a path. -/
def follow : Value → Path → Option Value
  | v, [] => some v
  | v, name :: rest =>
    match v.field? name with
    | some next => follow next rest
    | none => none

/-- The value at a written path, null where the path leads nowhere. -/
def atPath (v : Value) (path : String) : Value := (v.follow (Path.ofText path)).getD .null

end Value

namespace Record

/-- Writes a value at a path. Objects on the way are made where nothing stands yet; where another
value stands the record stays as it is. -/
def setPath (r : Record) : Path → Value → Record
  | [], _ => r
  | [name], v => r.insert name v
  | name :: next :: rest, v =>
    match r.get? name with
    | none => r.insert name (.object (setPath [] (next :: rest) v))
    | some (.object fields) => r.insert name (.object (setPath fields (next :: rest) v))
    | some _ => r

/-- The part of a value that stands at the given paths, under the same paths. -/
def pick (v : Value) (paths : List String) : Record :=
  paths.foldl (fun r path => r.setPath (Path.ofText path) (v.atPath path)) []

end Record

/-! ## Lemmas -/

namespace Value

@[simp] theorem follow_nil (v : Value) : v.follow [] = some v := rfl

theorem follow_cons (v : Value) (name : String) (rest : Path) :
    v.follow (name :: rest) = (v.field? name).bind (·.follow rest) := by
  rw [follow]
  cases v.field? name <;> rfl

end Value

/-- A written path has at least one name. -/
theorem Path.ofText_ne_nil (text : String) : Path.ofText text ≠ [] := by
  simp [Path.ofText, Text.split_ne_nil]

end DataAccess
