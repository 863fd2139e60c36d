/-!
# Double precision numbers

The finite numbers of the 64-bit binary format, held as a sign and a magnitude. The magnitude is
the bit pattern without the sign, so that magnitudes are ordered like the absolute values they
stand for. All arithmetic is exact arithmetic on naturals followed by one rounding to the nearest
number, ties going to the even one.

- `Double`: the finite numbers, `-0.0` and `0.0` being two of them.
- `Double.scaled`: a number as `m * 2^q`.
- `Double.nearestMagnitude`: the magnitude nearest to a quotient of naturals.
- `Double.ofRatio?`: the number nearest to a signed quotient, unless it is too large.
- `Double.rank`: the place of a number in the order of all numbers.
-/

namespace DataAccess

/-- A finite number of the 64-bit binary format. -/
structure Double where
  /-- the sign is minus -/
  negative : Bool
  /-- the bit pattern of the absolute value: eleven bits of exponent, then fifty-two of
  fraction -/
  magnitude : Nat
  /-- patterns from here on stand for no finite number -/
  finite : magnitude < 0x7FF0000000000000
  deriving DecidableEq

/-- A quotient rounded to the nearest natural, ties to even. -/
def roundQuotient (num den : Nat) : Nat :=
  let q := num / den
  let r := 2 * (num % den)
  if r < den then q
  else if den < r then q + 1
  else if q % 2 = 0 then q else q + 1

namespace Double

/-- The first bit pattern that stands for no finite number. -/
abbrev limit : Nat := 0x7FF0000000000000

/-- The number of fractions, which is the weight of the lowest bit of the exponent. -/
abbrev fractions : Nat := 0x10000000000000

/-- The absolute value as `m * 2^q`. -/
def scaled (x : Double) : Nat × Int :=
  let exponent : Nat := x.magnitude / fractions
  let fraction : Nat := x.magnitude % fractions
  if exponent = 0 then (fraction, -1074)
  else (fractions + fraction, (exponent : Int) - 1075)

/-- Multiplies the quotient `num / den` by `2^q`. -/
def shiftQuotient (num den : Nat) (q : Int) : Nat × Nat :=
  if 0 ≤ q then (num <<< q.toNat, den) else (num, den <<< (-q).toNat)

/-- The greatest `k` with `2^k ≤ num / den`, for a positive quotient. -/
def binaryExponent (num den : Nat) : Int :=
  let guess : Int := (num.log2 : Int) - (den.log2 : Int)
  let (n, d) := shiftQuotient num den (-guess)
  if d ≤ n then guess else guess - 1

/-- The magnitude nearest to `num / den`, ties to even. Quotients beyond the finite numbers give
patterns from `Double.limit` on. -/
def nearestMagnitude (num den : Nat) : Nat :=
  if num = 0 then 0
  else
    let q := max (binaryExponent num den - 52) (-1074)
    let (n, d) := shiftQuotient num den (-q)
    (q + 1074).toNat * fractions + roundQuotient n d

/-- The number nearest to `num / den` with the given sign, unless it is too large. -/
def ofRatio? (negative : Bool) (num den : Nat) : Option Double :=
  let magnitude := nearestMagnitude num den
  if h : magnitude < limit then some ⟨negative, magnitude, h⟩ else none

/-- The place of a number in the order of all numbers. Both zeros have place zero. -/
def rank (x : Double) : Int :=
  if x.negative then -(x.magnitude : Int) else x.magnitude

/-- The place, in the order of all numbers, of the number nearest to an integer. -/
def rankOfInt (n : Int) : Int :=
  if n < 0 then -(nearestMagnitude n.natAbs 1 : Int) else nearestMagnitude n.natAbs 1

/-- The number nearest to an integer, unless it is too large. -/
def ofInt? (n : Int) : Option Double := ofRatio? (n < 0) n.natAbs 1

/-- The product of two absolute values, rounded, with the sign of the first. -/
def times? (x y : Double) : Option Double :=
  let (m, q) := x.scaled
  let (n, r) := y.scaled
  let (num, den) := shiftQuotient (m * n) 1 (q + r)
  ofRatio? x.negative num den

/-- The quotient of two absolute values, rounded, with the sign of the first. -/
def over? (x y : Double) : Option Double :=
  let (m, q) := x.scaled
  let (n, r) := y.scaled
  let (num, den) := shiftQuotient m n (q - r)
  if den = 0 then none else ofRatio? x.negative num den

/-- Zero with the given sign. -/
def zero (negative : Bool) : Double := ⟨negative, 0, by decide⟩

/-- The opposite number. -/
def neg (x : Double) : Double := { x with negative := !x.negative }

end Double

end DataAccess
