import DataAccess.Filter.OData
import DataAccess.Plan.Execution
import DataAccess.Query.Basic
import DataAccess.Query.Evaluation
import DataAccess.Wire.Fields

/-!
# Queries as values

The exchange form of predicates, queries and answers.

- `Dialect.ofValue?`, `Operator.ofValue?`, `Connective.ofValue?`: names.
- `Predicate.toValue`, `Predicate.ofValue?`: an object with one field that says which kind of
  predicate it is; `Predicate.ofValue?_toValue` says that what was written is read back.
- `Query.toValue`, `Query.ofValue?`: all clauses; absent ones are null or left out.
- `Response.toValue`, `Extra.toValue`, `Loaded.toValue` and their readers.
-/

namespace DataAccess

/-- The name of a dialect. -/
def Dialect.name : Dialect → String
  | v2 => "v2"
  | v4 => "v4"

/-- Reads a dialect. -/
def Dialect.ofValue? (v : Value) : Option Dialect := do
  let name ← v.variant?
  [v2, v4].find? (·.name = name)

/-- Reads an operator by its name in a query. -/
def Operator.ofValue? (v : Value) : Option Operator := do
  let name ← v.variant?
  [eq, ne, gt, lt, ge, le, startsWith, endsWith, contains].find? (·.name = name)

/-- Reads a connective by its token. -/
def Connective.ofValue? (v : Value) : Option Connective := do
  let name ← v.variant?
  [and, or].find? (·.token = name)

@[simp] theorem Operator.ofValue?_name (op : Operator) :
    Operator.ofValue? (.string op.name) = some op := by
  cases op <;> decide +kernel

namespace Predicate

mutual

/-- The exchange form of a predicate. -/
def toValue : Predicate → Value
  | comparison field op value =>
    .object [("binary", .object
      [("field", .string field), ("operator", .string op.name), ("value", value)])]
  | all parts => .object [("and", .array (toValues parts))]
  | any parts => .object [("or", .array (toValues parts))]
  | negation part => .object [("not", part.toValue)]

/-- The exchange forms of several predicates. -/
def toValues : List Predicate → List Value
  | [] => []
  | part :: rest => part.toValue :: toValues rest

end

/-- Reads a comparison from its fields. -/
def comparisonOfFields? (fields : Record) : Option Predicate := do
  let field ← fields.required "field" Value.asText?
  let op ← fields.required "operator" Operator.ofValue?
  let value ← fields.get? "value"
  return comparison field op value

mutual

/-- Reads a predicate. -/
def ofValue? : Value → Option Predicate
  | .object [(kind, .object fields)] =>
    if kind = "binary" then comparisonOfFields? fields
    else if kind = "not" then (ofValue? (.object fields)).map negation
    else none
  | .object [(kind, .array parts)] =>
    if kind = "and" then (ofValues? parts).map all
    else if kind = "or" then (ofValues? parts).map any
    else none
  | _ => none

/-- Reads several predicates. -/
def ofValues? : List Value → Option (List Predicate)
  | [] => some []
  | v :: rest =>
    match ofValue? v, ofValues? rest with
    | some part, some parts => some (part :: parts)
    | _, _ => none

end

/-- The exchange form of a predicate is an object. -/
theorem exists_toValue_eq_object (p : Predicate) : ∃ fields, p.toValue = .object fields := by
  cases p <;> exact ⟨_, rfl⟩

mutual

/-- A predicate that was written is read back. -/
theorem ofValue?_toValue : (p : Predicate) → ofValue? p.toValue = some p
  | comparison field op value => by
    simp [toValue, ofValue?, comparisonOfFields?, Record.required, Record.get?, Value.asText?]
  | all parts => by simp [toValue, ofValue?, ofValues?_toValues parts]
  | any parts => by simp [toValue, ofValue?, ofValues?_toValues parts]
  | negation part => by
    have h := ofValue?_toValue part
    obtain ⟨fields, hf⟩ := exists_toValue_eq_object part
    rw [hf] at h
    simp [toValue, ofValue?, hf, h]

theorem ofValues?_toValues : (parts : List Predicate) → ofValues? (toValues parts) = some parts
  | [] => rfl
  | part :: rest => by
    simp [toValues, ofValues?, ofValue?_toValue part, ofValues?_toValues rest]

end

end Predicate

/-- The exchange form of a sort key of a query. -/
def SortItem.toValue (item : SortItem) : Value :=
  .ofFields [("path", .string item.path), ("descending", .bool item.descending)]

/-- Reads a sort key of a query. -/
def SortItem.ofValue? (v : Value) : Option SortItem := do
  let fields ← v.fields? ["path", "descending"] 2
  let path ← fields.required "path" Value.asText?
  let descending ← fields.required "descending" Value.asFlag?
  return ⟨path, descending⟩

/-- The exchange form of a list of related data. -/
def expandToValue (paths : List String) : Value := .ofFields [("property_paths", .texts paths)]

/-- Reads a list of related data. -/
def expandOfValue? (v : Value) : Option (List String) := do
  let fields ← v.fields? ["property_paths"] 1
  fields.required "property_paths" Value.asTexts?

namespace Query

/-- The names of the clauses, in their fixed order. -/
def clauseNames : List String :=
  ["resource_name", "where_clause", "order_by", "expand_clause", "select", "skip", "take",
   "inline_count"]

/-- The exchange form of a query. -/
def toValue (q : Query) : Value :=
  .ofFields
    [("resource_name", .ofOption .string q.resource),
     ("where_clause", .ofOption Predicate.toValue q.filter),
     ("order_by", .array (q.order.map SortItem.toValue)),
     ("expand_clause", .ofOption expandToValue q.expand),
     ("select", .texts q.select),
     ("skip", .ofOption .nat q.skip),
     ("take", .ofOption .nat q.take),
     ("inline_count", .bool q.countTotal)]

/-- Reads a query. -/
def ofValue? (v : Value) : Option Query := do
  let fields ← v.fields? clauseNames clauseNames.length
  let resource ← fields.optional "resource_name" Value.asText?
  let filter ← fields.optional "where_clause" Predicate.ofValue?
  let order ← fields.required "order_by" (Value.asList? SortItem.ofValue?)
  let expand ← fields.optional "expand_clause" expandOfValue?
  let select ← fields.required "select" Value.asTexts?
  let skip ← fields.optional "skip" Value.asCount?
  let take ← fields.optional "take" Value.asCount?
  let countTotal ← fields.required "inline_count" Value.asFlag?
  return { resource, filter, order, expand, select, skip, take, countTotal }

end Query

/-- The exchange form of an answer. -/
def Response.toValue (r : Response) : Value :=
  .ofFields [("results", .array r.rows), ("inline_count", .ofOption .nat r.total)]

/-- Reads an answer. -/
def Response.ofValue? (v : Value) : Option Response := do
  let fields ← v.fields? ["results", "inline_count"] 2
  let rows ← fields.required "results" (Value.asList? some)
  let total ← fields.optional "inline_count" Value.asCount?
  return ⟨rows, total⟩

/-- The exchange form of what is told about all rows. What is not told is left out. -/
def Extra.toValue (extra : Extra) : Value :=
  match extra.total with
  | none => .object []
  | some n => .object [("totalCount", .nat n)]

/-- Reads what is told about all rows. -/
def Extra.ofValue? (v : Value) : Option Extra := do
  let fields ← v.fields? ["totalCount"] 0
  let total ← fields.optional "totalCount" Value.asCount?
  return ⟨total⟩

/-- The exchange form of loaded rows. -/
def Loaded.toValue (l : Loaded) : Value :=
  .ofFields [("results", .array l.rows), ("extra", l.extra.toValue)]

/-- Reads loaded rows. -/
def Loaded.ofValue? (v : Value) : Option Loaded := do
  let fields ← v.fields? ["results", "extra"] 2
  let rows ← fields.required "results" (Value.asList? some)
  let extra ← fields.required "extra" Extra.ofValue?
  return ⟨rows, extra⟩

end DataAccess
