import DataAccess.Filter.Criterion

/-!
# The array grammar of criteria

Criteria are written as arrays. A negation is `["!", criterion]` or `["not", criterion]`; a group
is an array whose first element is an array, with criteria and connective tokens as elements; a
comparison is `[field, operator, value]` or `[field, value]`, which tests for equality.

- `Criterion.ofValue`: reads a criterion.
- `Criterion.toValue`: writes one.
- `Predicate.ofCriteria`: reads and compiles.
-/

namespace DataAccess

namespace Criterion

/-- Whether a token stands for negation. -/
def negates (token : String) : Bool :=
  token = "!" || Text.sameBasic token.toList "not".toList

/-- Reads a comparison. -/
def leafOfItems : List Value → Except Error Criterion
  | [] => .error (.malformed (.tooShort 0))
  | [_] => .error (.malformed (.tooShort 1))
  | [.string field, value] => .ok (.leaf field "=" value)
  | .string field :: .string operator :: value :: _ => .ok (.leaf field operator value)
  | .string _ :: operator :: _ => .error (.malformed (.operatorNotText operator))
  | field :: _ => .error (.malformed (.fieldNotText field))

mutual

/-- Reads a criterion. -/
def ofValue : Value → Except Error Criterion
  | .array [.string token, .array inner] =>
    if negates token then
      match ofValue (.array inner) with
      | .ok c => .ok (.negation c)
      | .error e => .error e
    else leafOfItems [.string token, .array inner]
  | .array (.array first :: rest) =>
    match elementsOfValues (.array first :: rest) with
    | .ok items => .ok (.group items)
    | .error e => .error e
  | .array items => leafOfItems items
  | v => .error (.malformed (.notAnArray v))

/-- Reads the elements of a group. -/
def elementsOfValues : List Value → Except Error (List (GroupElement Criterion))
  | [] => .ok []
  | .array inner :: rest =>
    match ofValue (.array inner) with
    | .error e => .error e
    | .ok c =>
      match elementsOfValues rest with
      | .error e => .error e
      | .ok items => .ok (.operand c :: items)
  | .string token :: rest =>
    match elementsOfValues rest with
    | .error e => .error e
    | .ok items => .ok (.connective (Connective.ofToken token) :: items)
  | v :: _ => .error (.malformed (.strayElement v))

end

mutual

/-- Writes a criterion. -/
def toValue : Criterion → Value
  | leaf field operator value => .array [.string field, .string operator, value]
  | negation part => .array [.string "!", part.toValue]
  | group items => .array (elementValues items)

/-- Writes the items of a group. -/
def elementValues : List (GroupElement Criterion) → List Value
  | [] => []
  | .operand c :: rest => c.toValue :: elementValues rest
  | .connective k :: rest => .string k.token :: elementValues rest

end

end Criterion

/-- The predicate that a written criterion means. -/
def Predicate.ofCriteria (v : Value) : Except Error Predicate :=
  match Criterion.ofValue v with
  | .ok c => c.compile
  | .error e => .error e

end DataAccess
