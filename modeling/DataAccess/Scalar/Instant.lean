import DataAccess.Number.Text
import DataAccess.Value.Basic

/-!
# Points in time

A point in time is counted in seconds since the beginning of 1970 in universal time, without leap
seconds. It is written as date and time of day with the offset `+00:00`; fractions of a second
have as many groups of three digits as they need.

- `Instant`, `Instant.chars`: the point and its text.
- `Instant.date`: the day in the calendar, by eras of four hundred years.
- `Instant.toValue`: the point as a value to compare with.
-/

namespace DataAccess

/-- A point in time. A billion nanoseconds and more stand for a leap second after the given
second. -/
structure Instant where
  seconds : Int
  nanos : Nat
  deriving DecidableEq

/-- A day in the calendar. -/
structure CalendarDay where
  year : Int
  month : Nat
  day : Nat
  deriving DecidableEq

/-- The digits of a natural, filled up with zeros to a width. -/
def paddedChars (width n : Nat) : List Char :=
  let digits := natChars n
  List.replicate (width - digits.length) '0' ++ digits

namespace Instant

/-- The day with a given number of days since the beginning of 1970. Years are counted from March
here, so that the leap day is the last day of its year; an era of four hundred years has 146097
days. -/
def dayOfCount (days : Int) : CalendarDay :=
  let shifted := days + 719468
  let era := shifted.fdiv 146097
  let ofEra := (shifted.fmod 146097).toNat
  let yearOfEra := (ofEra - ofEra / 1460 + ofEra / 36524 - ofEra / 146096) / 365
  let ofYear := ofEra - (365 * yearOfEra + yearOfEra / 4 - yearOfEra / 100)
  let fromMarch := (5 * ofYear + 2) / 153
  let day := ofYear - (153 * fromMarch + 2) / 5 + 1
  let month := if fromMarch < 10 then fromMarch + 3 else fromMarch - 9
  let year := (yearOfEra : Int) + era * 400 + if month ≤ 2 then 1 else 0
  ⟨year, month, day⟩

/-- The day of a point in time. -/
def date (t : Instant) : CalendarDay := dayOfCount (t.seconds.fdiv 86400)

/-- The year of a day. Years beyond four digits, and those before the year zero, have a sign. -/
def yearChars (year : Int) : List Char :=
  if 0 ≤ year ∧ year ≤ 9999 then paddedChars 4 year.toNat
  else (if year < 0 then '-' else '+') :: paddedChars 4 year.natAbs

/-- The fraction of a second, in as many groups of three digits as it needs. -/
def fractionChars (nanos : Nat) : List Char :=
  if nanos = 0 then []
  else if nanos % 1000000 = 0 then '.' :: paddedChars 3 (nanos / 1000000)
  else if nanos % 1000 = 0 then '.' :: paddedChars 6 (nanos / 1000)
  else '.' :: paddedChars 9 nanos

/-- The text of a point in time. -/
def chars (t : Instant) : List Char :=
  let { year, month, day } := t.date
  let ofDay := (t.seconds.fmod 86400).toNat
  let leap := 1000000000 ≤ t.nanos
  let second := ofDay % 60 + if leap then 1 else 0
  let nanos := if leap then t.nanos - 1000000000 else t.nanos
  yearChars year ++ '-' :: paddedChars 2 month ++ '-' :: paddedChars 2 day
    ++ 'T' :: paddedChars 2 (ofDay / 3600) ++ ':' :: paddedChars 2 (ofDay / 60 % 60)
    ++ ':' :: paddedChars 2 second ++ fractionChars nanos ++ ['+', '0', '0', ':', '0', '0']

/-- The point in time as a value to compare with. -/
def toValue (t : Instant) : Value := .string (String.ofList t.chars)

end Instant

end DataAccess
