import DataAccess.Number.Basic
import DataAccess.Number.Shortest

/-!
# The text of a number

Integers are written in decimal. A double precision number is written with the fewest digits that
read back: positionally, always with a fraction, while its leading digit stands at an exponent
from -5 to 15, and otherwise with a signed exponent that is not padded.

- `Number.chars`: the text.
- `Double.layout`: where the point and the exponent go.
-/

namespace DataAccess

/-- The decimal digits of a natural. -/
def natChars (n : Nat) : List Char := Nat.toDigits 10 n

/-- The decimal text of an integer. -/
def intChars : Int → List Char
  | .ofNat n => natChars n
  | .negSucc n => '-' :: natChars (n + 1)

namespace Double

/-- The least exponent of the leading digit that is written positionally. -/
def positionalFrom : Int := -5

/-- The greatest exponent of the leading digit that is written positionally. -/
def positionalTo : Int := 15

/-- The text of a decimal. -/
def layout (d : Decimal) : List Char :=
  let digits := natChars d.digits
  let count := digits.length
  let leading : Int := d.exponent + count - 1
  if positionalFrom ≤ leading ∧ leading ≤ positionalTo then
    if 0 ≤ d.exponent then
      digits ++ List.replicate d.exponent.toNat '0' ++ ['.', '0']
    else if 0 ≤ leading then
      digits.take (leading + 1).toNat ++ '.' :: digits.drop (leading + 1).toNat
    else
      '0' :: '.' :: List.replicate (-leading - 1).toNat '0' ++ digits
  else
    let mantissa := match digits with
      | [] => []
      | [c] => [c]
      | c :: rest => c :: '.' :: rest
    let sign := if leading < 0 then '-' else '+'
    mantissa ++ 'e' :: sign :: natChars leading.natAbs

/-- The text of a double precision number. -/
def chars (x : Double) : List Char :=
  if x.negative then '-' :: layout x.shortest else layout x.shortest

end Double

namespace Number

/-- The text of a number. -/
def chars : Number → List Char
  | int n => intChars n
  | double x => x.chars

end Number

end DataAccess
