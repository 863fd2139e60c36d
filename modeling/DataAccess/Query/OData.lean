import DataAccess.Filter.OData
import DataAccess.Query.Basic

/-!
# The text of a query

The clauses of a query, as the options of an OData request: filter, order, related data, parts,
stretch and total, each only where the query says something about it, joined by `&`.

- `Query.optionParts`: the options.
- `Query.options`: the options as one text.
- `Query.render`: the resource and the options.
-/

namespace DataAccess

/-- The text of one sort key. -/
def SortItem.chars (item : SortItem) : List Char :=
  if item.descending then pathChars item.path ++ " desc".toList else pathChars item.path

/-- The text of a list of paths. -/
def pathListChars (paths : List String) : List Char := Text.join [','] (paths.map pathChars)

namespace Query

/-- The options that a query calls for, in their fixed order. -/
def optionParts (dialect : Dialect) (q : Query) : List (List Char) :=
  (match q.filter with
    | none => []
    | some p => ["$filter=".toList ++ p.chars dialect])
  ++ (if q.order.isEmpty then []
    else ["$orderby=".toList ++ Text.join [','] (q.order.map SortItem.chars)])
  ++ (if q.expanded.isEmpty then [] else ["$expand=".toList ++ pathListChars q.expanded])
  ++ (if q.select.isEmpty then [] else ["$select=".toList ++ pathListChars q.select])
  ++ (match q.skip with
    | none => []
    | some n => ["$skip=".toList ++ natChars n])
  ++ (match q.take with
    | none => []
    | some n => ["$top=".toList ++ natChars n])
  ++ (if q.countTotal then
      [match dialect with
        | .v2 => "$inlinecount=allpages".toList
        | .v4 => "$count=true".toList]
    else [])

/-- The options of a query as one text, as characters. -/
def optionChars (dialect : Dialect) (q : Query) : List Char :=
  Text.join ['&'] (q.optionParts dialect)

/-- The options of a query as one text. -/
def options (dialect : Dialect) (q : Query) : String := String.ofList (q.optionChars dialect)

/-- The request for a query in the newer dialect. -/
def render (q : Query) : String :=
  let resource := q.resource.getD ""
  if (q.optionChars .v4).isEmpty then resource else resource ++ "?" ++ q.options .v4

end Query

end DataAccess
