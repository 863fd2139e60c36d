import DataAccess.Store.Basic
import DataAccess.Wire.Fields

/-!
# Requests to a store as values

The exchange form of what configures a store and of what is asked of it.

- `Policy.toValue`, `Policy.ofValue?`: how a store works; every field has a default.
- `SortKey.ofValue?`: a sort key, ascending unless it says otherwise.
- `LoadRequest.toValue`, `LoadRequest.ofValue?`: what rows are wanted; every field has a default.
-/

namespace DataAccess

/-- The exchange form of a policy. -/
def Policy.toValue (policy : Policy) : Value :=
  .ofFields [("autoCommit", .bool policy.saveAtOnce), ("preferLocal", .bool policy.preferTracked)]

/-- Reads a policy. -/
def Policy.ofValue? (v : Value) : Option Policy := do
  let fields ← v.fields? ["autoCommit", "preferLocal"] 0
  let standard : Policy := {}
  let saveAtOnce ← fields.orElse "autoCommit" Value.asFlag? standard.saveAtOnce
  let preferTracked ← fields.orElse "preferLocal" Value.asFlag? standard.preferTracked
  return { saveAtOnce, preferTracked }

/-- The exchange form of a sort key of a request. -/
def SortKey.toValue (key : SortKey) : Value :=
  .ofFields [("selector", .string key.selector), ("desc", .bool key.descending)]

/-- Reads a sort key of a request. -/
def SortKey.ofValue? (v : Value) : Option SortKey := do
  let fields ← v.fields? ["selector", "desc"] 1
  let selector ← fields.required "selector" Value.asText?
  let descending ← fields.orElse "desc" Value.asFlag? false
  return { selector, descending }

namespace LoadRequest

/-- The names of the parts of a request, in their fixed order. -/
def partNames : List String :=
  ["filter", "sort", "select", "expand", "skip", "take", "requireTotalCount"]

/-- The exchange form of a request, without the prepared query. -/
def toValue (request : LoadRequest) : Value :=
  .ofFields
    [("filter", request.filter.getD .null),
     ("sort", .array (request.sort.map SortKey.toValue)),
     ("select", .texts request.select),
     ("expand", .texts request.expand),
     ("skip", .ofOption .nat request.skip),
     ("take", .ofOption .nat request.take),
     ("requireTotalCount", .bool request.countTotal)]

/-- Reads a request. -/
def ofValue? (v : Value) : Option LoadRequest := do
  let fields ← v.fields? partNames 0
  let filter ← fields.optional "filter" some
  let sort ← fields.orElse "sort" (Value.asList? SortKey.ofValue?) []
  let select ← fields.orElse "select" Value.asTexts? []
  let expand ← fields.orElse "expand" Value.asTexts? []
  let skip ← fields.optional "skip" Value.asCount?
  let take ← fields.optional "take" Value.asCount?
  let countTotal ← fields.orElse "requireTotalCount" Value.asFlag? false
  return { filter, sort, select, expand, skip, take, countTotal }

end LoadRequest

end DataAccess
