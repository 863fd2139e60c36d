import DataAccess.Number.Basic

/-!
# Reading numbers

A number without a fraction and an exponent is an integer as long as it fits 64 bits, signed or
unsigned; any other is a double precision number. Of the digits of such a number only as many
count as fit 64 unsigned bits, and the value is that significand, rounded, times or over the
rounded power of ten.

- `Numeral`: the parts of a written number.
- `Numeral.value?`: the number it stands for, unless it is too large.
-/

namespace DataAccess

/-- A written number, taken apart. -/
structure Numeral where
  /-- a minus sign stands in front -/
  negative : Bool
  /-- the digits before the point -/
  whole : List Nat
  /-- the digits after the point, empty where there is none -/
  fraction : List Nat
  /-- the written exponent -/
  exponent : Option Int

namespace Numeral

/-- The greatest natural of 64 bits. -/
abbrev maxWord : Nat := 0xFFFFFFFFFFFFFFFF

/-- Appends digits to a significand while it fits 64 bits, and gives what remains. -/
def absorb (significand : Nat) : List Nat → Nat × List Nat
  | [] => (significand, [])
  | d :: rest =>
    if significand * 10 + d ≤ maxWord then absorb (significand * 10 + d) rest
    else (significand, d :: rest)

/-- The number `significand * 10^exponent`, where the powers of ten are those of double precision.
Smaller powers than the least of these are taken in several steps, of which `fuel` bounds the
number. -/
def scaleBy? (significand : Double) (exponent : Int) : Nat → Option Double
  | 0 => some (Double.zero significand.negative)
  | fuel + 1 =>
    if exponent.natAbs ≤ 308 then do
      let power ← Double.ofRatio? false (Nat.pow 10 exponent.natAbs) 1
      if 0 ≤ exponent then significand.times? power else significand.over? power
    else if significand.magnitude = 0 then some significand
    else if 0 ≤ exponent then none
    else do
      let power ← Double.ofRatio? false (Nat.pow 10 308) 1
      let smaller ← significand.over? power
      scaleBy? smaller (exponent + 308) fuel

/-- The double precision number that a written number stands for. -/
def double? (n : Numeral) : Option Double := do
  let (significand, dropped) := absorb 0 n.whole
  let (significand, unread) := absorb significand n.fraction
  let exponent := (n.exponent.getD 0) + dropped.length - (n.fraction.length - unread.length : Nat)
  let start ← Double.ofRatio? n.negative significand 1
  scaleBy? start exponent 4

/-- The number that a written number stands for, unless it is too large. -/
def value? (n : Numeral) : Option Number :=
  match n.fraction, n.exponent, absorb 0 n.whole with
  | [], none, (significand, []) =>
    if n.negative then
      if significand = 0 ∨ 0x8000000000000000 < significand then
        (Double.ofRatio? true significand 1).map .double
      else some (.int (-significand))
    else some (.int significand)
  | _, _, _ => n.double?.map .double

end Numeral

end DataAccess
