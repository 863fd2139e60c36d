import DataAccess.Filter.Operator
import DataAccess.Value.Order
import DataAccess.Value.Path

/-!
# Predicates

A predicate is a condition on records: a comparison of a field with a value, a conjunction, a
disjunction or a negation.

- `Predicate`: the tree.
- `Predicate.holds`: whether a record satisfies it; `Predicate.holds_all` and
  `Predicate.holds_any` read the two kinds of group as statements about their parts.
- `Predicate.and`: conjunction with a further condition, flat where the first is a conjunction;
  `Predicate.holds_and` says what it means.
-/

namespace DataAccess

/-- A condition on records. -/
inductive Predicate where
  /-- a comparison of what stands at a path with a value -/
  | comparison (field : String) (operator : Operator) (value : Value)
  /-- all parts hold -/
  | all (parts : List Predicate)
  /-- one of the parts holds -/
  | any (parts : List Predicate)
  /-- the part does not hold -/
  | negation (part : Predicate)
  deriving Inhabited

namespace Operator

/-- Whether a comparison of `actual` with `expected` holds. Values that cannot be compared are
unequal and stand in no order. -/
def test (op : Operator) (actual expected : Value) : Bool :=
  match op with
  | eq => actual.compare? expected == some .eq
  | ne => actual.compare? expected != some .eq
  | gt => actual.compare? expected == some .gt
  | lt => actual.compare? expected == some .lt
  | ge => actual.compare? expected == some .gt || actual.compare? expected == some .eq
  | le => actual.compare? expected == some .lt || actual.compare? expected == some .eq
  | startsWith => actual.textTest (fun a e => e.isPrefixOf a) expected
  | endsWith => actual.textTest (fun a e => e.isSuffixOf a) expected
  | contains => actual.textTest (fun a e => Text.occurs e a) expected

end Operator

namespace Predicate

mutual

/-- Whether a record satisfies a predicate. -/
def holds : Predicate → Value → Bool
  | comparison field op value, record => op.test (record.atPath field) value
  | all parts, record => allHold parts record
  | any parts, record => anyHolds parts record
  | negation part, record => !part.holds record

/-- Whether a record satisfies every predicate of a list. -/
def allHold : List Predicate → Value → Bool
  | [], _ => true
  | part :: rest, record => part.holds record && allHold rest record

/-- Whether a record satisfies some predicate of a list. -/
def anyHolds : List Predicate → Value → Bool
  | [], _ => false
  | part :: rest, record => part.holds record || anyHolds rest record

end

/-- The group of parts that a connective joins. -/
def group : Connective → List Predicate → Predicate
  | .and, parts => all parts
  | .or, parts => any parts

/-- A predicate and a further one. A conjunction takes the further one in as its last part. -/
def and (p q : Predicate) : Predicate :=
  match p with
  | all parts => all (parts ++ [q])
  | p => all [p, q]

/-! ## Lemmas -/

theorem allHold_eq (parts : List Predicate) (record : Value) :
    allHold parts record = parts.all fun part => part.holds record := by
  induction parts with
  | nil => rfl
  | cons part rest ih => rw [allHold, ih, List.all_cons]

theorem anyHolds_eq (parts : List Predicate) (record : Value) :
    anyHolds parts record = parts.any fun part => part.holds record := by
  induction parts with
  | nil => rfl
  | cons part rest ih => rw [anyHolds, ih, List.any_cons]

@[simp] theorem holds_comparison (field : String) (op : Operator) (value record : Value) :
    (comparison field op value).holds record = op.test (record.atPath field) value := rfl

@[simp] theorem holds_all (parts : List Predicate) (record : Value) :
    (all parts).holds record = parts.all fun part => part.holds record :=
  allHold_eq parts record

@[simp] theorem holds_any (parts : List Predicate) (record : Value) :
    (any parts).holds record = parts.any fun part => part.holds record :=
  anyHolds_eq parts record

@[simp] theorem holds_negation (part : Predicate) (record : Value) :
    (negation part).holds record = !part.holds record := rfl

/-- The conjunction holds where both predicates hold. -/
@[simp] theorem holds_and (p q : Predicate) (record : Value) :
    (p.and q).holds record = (p.holds record && q.holds record) := by
  cases p <;> simp [and]

end Predicate

end DataAccess
