import DataAccess.Value.Basic

/-!
# Reading data out of values

What the readers of this library's data share.

- `Value.asText?`, `Value.asFlag?`, `Value.asCount?`, `Value.asRecord?`, `Value.asList?`: a value of
  one kind. A count is an integer of 64 unsigned bits.
- `Value.variant?`: the name of one of several possibilities.
- `Value.fields?`: the fields of a structure, from an object or from a list of their values.
- `Record.required`, `Record.optional`, `Record.orElse`: one field, which may be missing or null as
  the three names say.
-/

namespace DataAccess

namespace Value

/-- A text. -/
def asText? : Value → Option String
  | string s => some s
  | _ => none

/-- A truth value. -/
def asFlag? : Value → Option Bool
  | bool b => some b
  | _ => none

/-- A count. -/
def asCount? : Value → Option Nat
  | number n => n.toNat?
  | _ => none

/-- The fields of an object. -/
def asRecord? : Value → Option Record
  | object fields => some fields
  | _ => none

/-- The items of an array, each read in the same way. -/
def asList? {α : Type} (read : Value → Option α) : Value → Option (List α)
  | array items => items.mapM read
  | _ => none

/-- A list of texts. -/
def asTexts? : Value → Option (List String) := asList? asText?

/-- The name of one of several possibilities: the text of the name, or an object that holds null
under it. -/
def variant? : Value → Option String
  | string name => some name
  | object [(name, null)] => some name
  | _ => none

/-- The fields of a structure with the given field names: the fields of an object, or the items of
an array in the order of the names, of which at least `least` have to be there. -/
def fields? (names : List String) (least : Nat) : Value → Option Record
  | object fields => some fields
  | array items =>
    if least ≤ items.length ∧ items.length ≤ names.length then some (names.zip items) else none
  | _ => none

/-- The value of something that may be absent. -/
def ofOption {α : Type} (write : α → Value) : Option α → Value
  | none => null
  | some a => write a

/-- A list of texts as a value. -/
def texts (list : List String) : Value := array (list.map string)

/-- An object with the given fields. -/
def ofFields (fields : List (String × Value)) : Value := object (Record.ofFields fields)

end Value

namespace Record

variable {α : Type}

/-- A field that has to be there. -/
def required (r : Record) (name : String) (read : Value → Option α) : Option α :=
  (r.get? name).bind read

/-- A field that may be missing or null. -/
def optional (r : Record) (name : String) (read : Value → Option α) : Option (Option α) :=
  match r.get? name with
  | none => some none
  | some .null => some none
  | some v => (read v).map some

/-- A field that may be missing, but not null. -/
def orElse (r : Record) (name : String) (read : Value → Option α) (default : α) : Option α :=
  match r.get? name with
  | none => some default
  | some v => read v

end Record

end DataAccess
