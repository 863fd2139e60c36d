import DataAccess.Number.Basic

/-!
# The quantities that numbers stand for

Numbers are compared by their places among all double precision numbers, and these places are read
off bit patterns. Here we say which quantities the patterns stand for. Every finite number is a
multiple of the least positive one, so that quantities can be counted in whole units. They stand in
the same order as the places.

- `Double.unitsOf`: the absolute value that a bit pattern stands for; `Double.unitsOf_magnitude`
  ties it to the number as `m * 2^q`.
- `Double.unitsOf_lt_unitsOf`: patterns are ordered like these values, by comparing a pattern with
  the next one.
- `Number.units`: the quantity that a number is compared by.
- `Number.rank_lt_rank_iff`, `Number.rank_eq_rank_iff`: places and quantities agree.
-/

namespace DataAccess

namespace Double

/-- The absolute value that a magnitude stands for, in units of `2^(-1074)`. With an exponent of
zero it is the fraction, and with any other a leading bit stands before the fraction. -/
def unitsOf (magnitude : Nat) : Nat :=
  let exponent := magnitude / fractions
  let fraction := magnitude % fractions
  if exponent = 0 then fraction else (fractions + fraction) <<< (exponent - 1)

theorem unitsOf_magnitude (x : Double) :
    unitsOf x.magnitude = x.scaled.1 <<< (x.scaled.2 + 1074).toNat := by
  unfold unitsOf scaled
  dsimp only
  split
  · rfl
  · rename_i hexponent
    have hpower : ((x.magnitude / fractions : Nat) - 1075 + 1074 : Int).toNat =
        x.magnitude / fractions - 1 := by omega
    rw [hpower]

@[simp] theorem unitsOf_zero : unitsOf 0 = 0 := rfl

theorem unitsOf_lt_succ (n : Nat) : unitsOf n < unitsOf (n + 1) := by
  have hfractions : fractions = 0x10000000000000 := rfl
  unfold unitsOf
  dsimp only
  rw [hfractions]
  by_cases hlast : n % 0x10000000000000 + 1 = 0x10000000000000
  · -- the last fraction: the exponent goes up by one, and the fractions start again
    have hexponent : (n + 1) / 0x10000000000000 = n / 0x10000000000000 + 1 := by omega
    have hfraction : (n + 1) % 0x10000000000000 = 0 := by omega
    rw [hexponent, hfraction, if_neg (Nat.succ_ne_zero _), Nat.add_sub_cancel, Nat.add_zero]
    split
    · rename_i hzero
      rw [hzero, Nat.shiftLeft_zero]
      omega
    · rename_i hpos
      obtain ⟨e, he⟩ := Nat.exists_eq_succ_of_ne_zero hpos
      rw [he, Nat.succ_sub_one, Nat.shiftLeft_eq, Nat.shiftLeft_eq, Nat.pow_succ,
        Nat.mul_comm (2 ^ e) 2, ← Nat.mul_assoc]
      exact Nat.mul_lt_mul_of_pos_right (by omega) (Nat.two_pow_pos e)
  · -- any other: the exponent stays
    have hexponent : (n + 1) / 0x10000000000000 = n / 0x10000000000000 := by omega
    have hfraction : (n + 1) % 0x10000000000000 = n % 0x10000000000000 + 1 := by omega
    rw [hexponent, hfraction]
    split
    · exact Nat.lt_succ_self _
    · rw [Nat.shiftLeft_eq, Nat.shiftLeft_eq]
      exact Nat.mul_lt_mul_of_pos_right (Nat.lt_succ_self _) (Nat.two_pow_pos _)

/-- A greater magnitude stands for a greater absolute value. -/
theorem unitsOf_lt_unitsOf {m n : Nat} (h : m < n) : unitsOf m < unitsOf n := by
  induction h with
  | refl => exact unitsOf_lt_succ m
  | step _ ih => exact Nat.lt_trans ih (unitsOf_lt_succ _)

end Double

namespace Number

/-- The quantity that a number is compared by, in units of `2^(-1074)`: that of the double precision
number nearest to it. -/
def units : Number → Int
  | int n =>
    let nearest : Int := Double.unitsOf (Double.nearestMagnitude n.natAbs 1)
    if n < 0 then -nearest else nearest
  | double x =>
    let absolute : Int := Double.unitsOf x.magnitude
    if x.negative then -absolute else absolute

/-- The quantity at a place in the order of all double precision numbers. -/
def unitsAt (place : Int) : Int :=
  if place < 0 then -(Double.unitsOf place.natAbs : Int) else Double.unitsOf place.natAbs

theorem unitsAt_neg (n : Nat) : unitsAt (-n) = -(Double.unitsOf n : Int) := by
  unfold unitsAt
  split
  · rw [Int.natAbs_neg, Int.natAbs_natCast]
  · have hn : n = 0 := by omega
    subst hn
    rfl

/-- A later place is that of a greater quantity. -/
theorem unitsAt_lt_unitsAt {a b : Int} (h : a < b) : unitsAt a < unitsAt b := by
  have hmono {m n : Nat} (h : m < n) : (Double.unitsOf m : Int) < Double.unitsOf n :=
    Int.ofNat_lt.2 (Double.unitsOf_lt_unitsOf h)
  unfold unitsAt
  split <;> split
  · exact Int.neg_lt_neg (hmono (by omega))
  · have hpos := @hmono 0 a.natAbs (by omega)
    rw [Double.unitsOf_zero] at hpos
    omega
  · omega
  · exact hmono (by omega)

/-- The quantity of a number is the one at its place. -/
theorem units_eq_unitsAt (n : Number) : n.units = unitsAt n.rank := by
  cases n with
  | int n =>
    unfold units rank Double.rankOfInt
    dsimp only
    split
    · exact (unitsAt_neg _).symm
    · rfl
  | double x =>
    unfold units rank Double.rank
    dsimp only
    split
    · exact (unitsAt_neg _).symm
    · rfl

/-- Numbers have places as they have quantities. -/
theorem rank_compare_units (m n : Number) :
    m.rank < n.rank ∧ m.units < n.units ∨ m.rank = n.rank ∧ m.units = n.units ∨
      n.rank < m.rank ∧ n.units < m.units := by
  rw [units_eq_unitsAt, units_eq_unitsAt]
  obtain h | h | h := Int.lt_trichotomy m.rank n.rank
  · exact .inl ⟨h, unitsAt_lt_unitsAt h⟩
  · exact .inr (.inl ⟨h, congrArg unitsAt h⟩)
  · exact .inr (.inr ⟨h, unitsAt_lt_unitsAt h⟩)

theorem rank_lt_rank_iff {m n : Number} : m.rank < n.rank ↔ m.units < n.units := by
  have h := rank_compare_units m n
  omega

theorem rank_eq_rank_iff {m n : Number} : m.rank = n.rank ↔ m.units = n.units := by
  have h := rank_compare_units m n
  omega

end Number

end DataAccess
