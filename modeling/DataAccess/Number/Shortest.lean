import DataAccess.Number.Double

/-!
# The fewest digits that read back

The decimal text of a double precision number uses the fewest significant digits that still
identify it, and of several such digit strings the one nearest to the number.

- `Decimal`: digits and a power of ten.
- `Double.readsBack`: whether a decimal lies among the reals that round to a number.
- `Double.shortest`: the decimal with the fewest digits that reads back.
- `Decimal.strip_value`: dropping final zeros keeps the value.
-/

namespace DataAccess

/-- The decimal number `digits * 10^exponent`. -/
structure Decimal where
  digits : Nat
  exponent : Int
  deriving DecidableEq

namespace Decimal

/-- The same number without zeros at the end of its digits; `fuel` bounds how many are dropped. -/
def strip : Nat → Decimal → Decimal
  | 0, d => d
  | fuel + 1, d =>
    if d.digits ≠ 0 ∧ d.digits % 10 = 0 then strip fuel ⟨d.digits / 10, d.exponent + 1⟩ else d

/-- Stripping divides the digits by the power of ten that it moves into the exponent. -/
theorem strip_value (fuel : Nat) (d : Decimal) :
    ∃ k : Nat, d.digits = (strip fuel d).digits * Nat.pow 10 k ∧
      (strip fuel d).exponent = d.exponent + k := by
  induction fuel generalizing d with
  | zero => exact ⟨0, by simp [strip]⟩
  | succ fuel ih =>
    unfold strip
    split
    · rename_i h
      obtain ⟨k, hd, he⟩ := ih ⟨d.digits / 10, d.exponent + 1⟩
      refine ⟨k + 1, ?_, ?_⟩
      · have hten : d.digits = d.digits / 10 * 10 := by omega
        show d.digits = _ * (Nat.pow 10 k * 10)
        rw [← Nat.mul_assoc, ← hd]
        exact hten
      · rw [he]
        push_cast
        omega
    · exact ⟨0, by simp⟩

end Decimal

namespace Double

/-- Compares `a * 2^q` with `b * 10^k`. -/
def compareScaled (a : Nat) (q : Int) (b : Nat) (k : Int) : Ordering :=
  let left := a <<< q.toNat * Nat.pow 10 (-k).toNat
  let right := (b * Nat.pow 10 k.toNat) <<< (-q).toNat
  compare left right

/-- Whether a decimal lies among the reals that round to the absolute value of a number: between
the points halfway to its two neighbours, these points included when the number is even. Below a
power of two the neighbour is only half as far away. -/
def readsBack (x : Double) (d : Decimal) : Bool :=
  let (m, q) := x.scaled
  let narrow := x.magnitude % fractions = 0 ∧ fractions < x.magnitude
  let low := compareScaled (4 * m - if narrow then 1 else 2) (q - 2) d.digits d.exponent
  let high := compareScaled (4 * m + 2) (q - 2) d.digits d.exponent
  if m % 2 = 0 then low ≠ .gt ∧ high ≠ .lt else low = .lt ∧ high = .gt

/-- The least `k` with `m * 2^q < 10^k`, for positive `m`. The binary logarithm gives a first
guess that is at most one too small. -/
def decimalScale (m : Nat) (q : Int) : Int :=
  let guess := ((m.log2 : Int) + q) * 30103 / 100000
  let above := fun k : Int => compareScaled m q 1 k = .lt
  if above guess then guess else if above (guess + 1) then guess + 1 else guess + 2

/-- `⌊m * 2^q / 10^k⌋`. -/
def floorOnGrid (m : Nat) (q k : Int) : Nat :=
  (m <<< q.toNat * Nat.pow 10 (-k).toNat) / (Nat.pow 10 k.toNat <<< (-q).toNat)

/-- The neighbour of a number on the grid of multiples of `10^k` that reads back; of two such
neighbours the nearer, and of two equally near ones the even. -/
def onGrid? (x : Double) (k : Int) : Option Decimal :=
  let (m, q) := x.scaled
  let below := floorOnGrid m q k
  let down : Decimal := ⟨below, k⟩
  let up : Decimal := ⟨below + 1, k⟩
  match x.readsBack down, x.readsBack up with
  | false, false => none
  | true, false => some down
  | false, true => some up
  | true, true =>
    match compareScaled (2 * m) q (2 * below + 1) k with
    | .lt => some down
    | .gt => some up
    | .eq => some (if below % 2 = 0 then down else up)

/-- The absolute value of a number, exactly, as a decimal. -/
def exactDecimal (x : Double) : Decimal :=
  let (m, q) := x.scaled
  if 0 ≤ q then ⟨m <<< q.toNat, 0⟩ else ⟨m * Nat.pow 5 (-q).toNat, q⟩

/-- The decimal with the fewest digits that reads back as the absolute value of a number. One
digit is tried first, then two, up to the seventeen that always suffice. -/
def shortest (x : Double) : Decimal :=
  if x.magnitude = 0 then ⟨0, 0⟩
  else
    let (m, q) := x.scaled
    let scale := decimalScale m q
    match (List.range 17).findSome? fun n => x.onGrid? (scale - (n + 1 : Nat)) with
    | some d => d.strip 20
    | none => x.exactDecimal.strip 400

end Double

end DataAccess
