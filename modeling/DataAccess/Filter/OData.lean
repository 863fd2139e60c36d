import DataAccess.Filter.Literal
import DataAccess.Filter.Predicate

/-!
# The text of a predicate

Predicates are written as the body of a filter option of an OData query. The two dialects differ
in one point: the older one tests for a part of a text by a function that takes the part first.

- `Dialect`: the two dialects.
- `Predicate.chars`, `Predicate.render`: the text, as characters and as a string.
-/

namespace DataAccess

/-- A dialect of the query language. -/
inductive Dialect where
  | v2
  | v4
  deriving DecidableEq

namespace Predicate

/-- The text of a comparison. -/
def comparisonChars (dialect : Dialect) (field : String) (op : Operator) (value : Value) :
    List Char :=
  let path := pathChars field
  let literal := value.literalChars
  if dialect = .v2 ∧ op = .contains then
    "substringof(".toList ++ literal ++ ',' :: path ++ ") eq true".toList
  else if op.isFunction then
    op.name.toList ++ '(' :: path ++ ',' :: literal ++ ") eq true".toList
  else
    path ++ ' ' :: op.name.toList ++ ' ' :: literal

mutual

/-- The text of a predicate. -/
def chars (dialect : Dialect) : Predicate → List Char
  | comparison field op value => comparisonChars dialect field op value
  | all parts => partChars dialect " and ".toList parts
  | any parts => partChars dialect " or ".toList parts
  | negation part => "not (".toList ++ chars dialect part ++ [')']

/-- The parts of a group, each in parentheses, with the connective between them. -/
def partChars (dialect : Dialect) (connective : List Char) : List Predicate → List Char
  | [] => []
  | [part] => '(' :: chars dialect part ++ [')']
  | part :: next :: rest =>
    '(' :: chars dialect part ++ ')' :: connective ++ partChars dialect connective (next :: rest)

end

/-- The text of a predicate, as a string. -/
def render (dialect : Dialect) (p : Predicate) : String := String.ofList (p.chars dialect)

end Predicate

end DataAccess
