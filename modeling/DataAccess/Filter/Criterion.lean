import DataAccess.Filter.Predicate

/-!
# Criteria

A criterion is a filter as a caller writes it: comparisons, groups of criteria with connectives
between them, and negations. It says less than a predicate requires: operators are tokens that may
name nothing, and a group may be empty or mix its connectives. Compiling a criterion settles
this.

- `Criterion`, `GroupElement`: the tree.
- `Criterion.compile`: the predicate that a criterion means, or what is wrong with it.
- `Criterion.GroupState`: what is known of a group while its items are read from left to right.
-/

namespace DataAccess

/-- An item of a group. -/
inductive GroupElement (α : Type) where
  | operand (a : α)
  | connective (k : Connective)

/-- A filter as a caller writes it. -/
inductive Criterion where
  /-- a comparison of a field with a value, by the operator that a token names -/
  | leaf (field : String) (operator : String) (value : Value)
  /-- criteria, and connectives between them -/
  | group (items : List (GroupElement Criterion))
  /-- the criterion does not hold -/
  | negation (part : Criterion)
  deriving Inhabited

namespace Criterion

/-- The token of a comparison in lower case, with the two signs that only criteria know written
as words. -/
def operatorToken (lower : List Char) : String :=
  if lower = ['='] then "eq"
  else if lower = ['<', '>'] then "ne"
  else String.ofList lower

/-- The predicate that a comparison means. The token `notcontains` negates `contains`. -/
def compileLeaf (field operator : String) (value : Value) : Except Error Predicate :=
  let lower := Text.lowercase operator.toList
  if lower = "notcontains".toList then
    .ok (.negation (.comparison field .contains value))
  else
    match Operator.ofToken (operatorToken lower) with
    | .ok op => .ok (.comparison field op value)
    | .error e => .error e

/-- What is known of a group before its next item. -/
structure GroupState where
  /-- the operands so far, compiled -/
  operands : List Predicate := []
  /-- the connective before the last operand -/
  established : Option Connective := none
  /-- the connective before the next operand -/
  upcoming : Option Connective := none

namespace GroupState

/-- From the third operand on, the connective before an operand has to be that before the operand
to its left. -/
def mixes (state : GroupState) : Bool :=
  decide (1 < state.operands.length) && decide (state.upcoming ≠ state.established)

/-- The state after a connective. The last of several connectives counts. -/
def connect (state : GroupState) (k : Connective) : GroupState :=
  { state with upcoming := some k }

/-- The state after an operand. Operands without a connective between them are joined by `and`. -/
def push (state : GroupState) (p : Predicate) : GroupState :=
  { operands := state.operands ++ [p], established := state.upcoming, upcoming := some .and }

/-- What a group means: one operand by itself is what the group means, several are joined. -/
def finish (state : GroupState) : Except Error Predicate :=
  match state.operands with
  | [] => .error (.malformed .emptyGroup)
  | [p] => .ok p
  | parts => .ok (.group (state.established.getD .and) parts)

end GroupState

mutual

/-- The predicate that a criterion means, or the first thing that is wrong with it. -/
def compile : Criterion → Except Error Predicate
  | leaf field operator value => compileLeaf field operator value
  | negation part =>
    match part.compile with
    | .ok p => .ok (.negation p)
    | .error e => .error e
  | group items =>
    match compileElements {} items with
    | .ok state => state.finish
    | .error e => .error e

/-- Reads the items of a group from left to right. -/
def compileElements (state : GroupState) : List (GroupElement Criterion) → Except Error GroupState
  | [] => .ok state
  | .connective k :: rest => compileElements (state.connect k) rest
  | .operand c :: rest =>
    if state.mixes then .error .mixedConnectives
    else match c.compile with
      | .ok p => compileElements (state.push p) rest
      | .error e => .error e

end

end Criterion

end DataAccess
