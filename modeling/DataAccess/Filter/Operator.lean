import DataAccess.Error
import DataAccess.Text.Lowercase
import DataAccess.Text.Pieces

/-!
# Operators and connectives

- `Operator`: the nine comparisons; three of them are functions of two texts.
- `Operator.ofToken`: the comparison that a token names, without regard to case.
- `Connective`: how the parts of a group are joined.
- `Connective.ofToken`: a token that mentions `and` or `&` is a conjunction, any other a
  disjunction.
-/

namespace DataAccess

/-- A comparison of a field with a value. -/
inductive Operator where
  | eq
  | ne
  | gt
  | lt
  | ge
  | le
  | startsWith
  | endsWith
  | contains
  deriving DecidableEq

/-- How the parts of a group are joined. -/
inductive Connective where
  | and
  | or
  deriving DecidableEq

namespace Operator

/-- The name of an operator in a query. -/
def name : Operator → String
  | eq => "eq"
  | ne => "ne"
  | gt => "gt"
  | lt => "lt"
  | ge => "ge"
  | le => "le"
  | startsWith => "startswith"
  | endsWith => "endswith"
  | contains => "contains"

/-- Whether a query writes the operator as a function call. -/
def isFunction : Operator → Bool
  | startsWith | endsWith | contains => true
  | eq | ne | gt | lt | ge | le => false

/-- The operators and the lower-case tokens that name them. -/
def tokens : List (String × Operator) :=
  [("eq", eq), ("==", eq), ("ne", ne), ("!=", ne), ("gt", gt), (">", gt), ("lt", lt), ("<", lt),
   ("ge", ge), (">=", ge), ("le", le), ("<=", le), ("startswith", startsWith),
   ("endswith", endsWith), ("contains", contains), ("substringof", contains)]

/-- The operator that a lower-case token names. -/
def ofLowerToken? (token : List Char) : Option Operator :=
  tokens.findSome? fun (spelling, op) => if spelling.toList = token then some op else none

/-- The operator that a token names, in any case. -/
def ofToken (token : String) : Except Error Operator :=
  match ofLowerToken? (Text.lowercase token.toList) with
  | some op => .ok op
  | none => .error (.unknownOperator token)

/-- Every operator is named by its name in a query. -/
@[simp] theorem ofToken_name (op : Operator) : ofToken op.name = .ok op := by
  have h : ofLowerToken? (Text.lowercase op.name.toList) = some op := by
    cases op <;> decide +kernel
  simp [ofToken, h]

end Operator

namespace Connective

/-- The connective that a token stands for. -/
def ofToken (token : String) : Connective :=
  let lower := Text.lowercase token.toList
  if Text.occurs ['a', 'n', 'd'] lower || Text.occurs ['&'] lower then and else or

/-- The token by which a connective is written. -/
def token : Connective → String
  | and => "and"
  | or => "or"

/-- A connective is read back from its token. -/
@[simp] theorem ofToken_token (k : Connective) : ofToken k.token = k := by
  cases k <;> decide +kernel

end Connective

end DataAccess
