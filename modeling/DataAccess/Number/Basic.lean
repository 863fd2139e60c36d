import DataAccess.Number.Double

/-!
# Numbers

A number in a data record is an integer or a double precision number. The two kinds are different
values, also where they stand for the same quantity, but they are compared by quantity: every
number takes the place of the double precision number nearest to it.

- `Number`: the two kinds.
- `Number.compare`: comparison by quantity; `Number.compare_eq_compare_rank` makes it a
  comparison of integers, hence a total preorder.
- `Number.same`: equality of values, where the two zeros count as one.
-/

namespace DataAccess

/-- An integer or a double precision number. -/
inductive Number where
  | int (n : Int)
  | double (x : Double)
  deriving DecidableEq

namespace Number

/-- The place of a number in the order of all double precision numbers. -/
def rank : Number → Int
  | int n => Double.rankOfInt n
  | double x => x.rank

/-- Compares two numbers by the double precision numbers nearest to them. -/
def compare (a b : Number) : Ordering := Ord.compare a.rank b.rank

/-- Whether two numbers are the same value: of one kind and equal in it. -/
def same : Number → Number → Bool
  | int m, int n => m = n
  | double x, double y => x.rank = y.rank
  | int _, double _ => false
  | double _, int _ => false

/-- The double precision number nearest to a number, unless it is too large. -/
def toDouble? : Number → Option Double
  | int n => Double.ofInt? n
  | double x => some x

/-- A number that is a natural, as one. -/
def toNat? : Number → Option Nat
  | int n => n.toNat?
  | double _ => none

/-! ## Lemmas -/

theorem compare_eq_compare_rank (a b : Number) : a.compare b = Ord.compare a.rank b.rank := rfl

@[simp] theorem compare_self (a : Number) : a.compare a = .eq := by simp [compare]

@[simp] theorem same_self (a : Number) : a.same a = true := by cases a <;> simp [same]

theorem same_comm (a b : Number) : a.same b = b.same a := by
  cases a <;> cases b <;> simp [same, eq_comm]

/-- Values that are the same compare equal. -/
theorem compare_eq_of_same {a b : Number} (h : a.same b = true) : a.compare b = .eq := by
  cases a <;> cases b <;> simp_all [same, compare, rank]

end Number

end DataAccess
