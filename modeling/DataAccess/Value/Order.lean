import DataAccess.Value.Basic

/-!
# Comparing values

Two values can be compared when they are both null, both numbers, both texts or both truth
values; any other two are incomparable. Texts are ordered by code points and false comes before
true.

- `Value.compare?`: the comparison.
- `Value.compareNullFirst`: the order of sorting, in which null comes before everything else and
  incomparable values count as equal.
- `Value.startsWith`, `Value.endsWith`, `Value.contains`: the tests that texts admit.
-/

namespace DataAccess

namespace Value

/-- Compares two values, if they are of one comparable kind. -/
def compare? : Value → Value → Option Ordering
  | null, null => some .eq
  | number a, number b => some (a.compare b)
  | string a, string b => some (compare a b)
  | bool a, bool b => some (compare a b)
  | _, _ => none

/-- Compares two values for sorting. -/
def compareNullFirst (a b : Value) : Ordering :=
  match a.isNull, b.isNull with
  | true, true => .eq
  | true, false => .lt
  | false, true => .gt
  | false, false => (a.compare? b).getD .eq

/-- A test of two texts; values that are not both texts fail it. -/
def textTest (test : List Char → List Char → Bool) : Value → Value → Bool
  | string a, string b => test a.toList b.toList
  | _, _ => false

/-! ## Lemmas -/

/-- Exchanging the two values reverses the order of sorting. -/
theorem compareNullFirst_swap (a b : Value) :
    (a.compareNullFirst b).swap = b.compareNullFirst a := by
  cases a <;> cases b <;>
    simp [compareNullFirst, isNull, compare?, Number.compare, ← Std.OrientedCmp.eq_swap]

end Value

end DataAccess
