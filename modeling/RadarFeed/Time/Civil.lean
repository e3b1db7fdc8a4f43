import RadarFeed.Time.Instant
import RadarFeed.Text.Digits

/-!
The calendar: dates of the Gregorian calendar, extended to all years, and the texts of instants.

`Date.days` counts the days from 1970-01-01, `Date.ofDays` finds the date of such a count. Years
from 0 to 9999 are written with four digits, others with a sign and at least four.
-/

namespace RadarFeed

/-- A date of the Gregorian calendar. -/
structure Date where
  year : Int
  month : Nat
  day : Nat
deriving DecidableEq, Repr, Inhabited

namespace Date

/-- Every fourth year is a leap year, except full centuries not divisible by four hundred. -/
def isLeap (year : Int) : Bool :=
  year.fmod 4 = 0 && (year.fmod 100 ≠ 0 || year.fmod 400 = 0)

/-- The number of days of a month. -/
def daysInMonth (year : Int) (month : Nat) : Nat :=
  match month with
  | 2 => if isLeap year then 29 else 28
  | 4 | 6 | 9 | 11 => 30
  | _ => 31

/-- A date is valid when its month has such a day. -/
def isValid (d : Date) : Bool :=
  1 ≤ d.month && d.month ≤ 12 && 1 ≤ d.day && d.day ≤ daysInMonth d.year d.month

def daysBeforeMonth (year : Int) : Nat → Nat
  | 0 => 0
  | 1 => 0
  | m + 2 => daysBeforeMonth year (m + 1) + daysInMonth year (m + 1)

/-- The days from 0001-01-01 to the first of January of a year. -/
def daysBeforeYear (year : Int) : Int :=
  365 * (year - 1) + (year - 1).fdiv 4 - (year - 1).fdiv 100 + (year - 1).fdiv 400

/-- The days from 0001-01-01 to 1970-01-01. -/
def epochDay : Int := 719162

/-- The days from 1970-01-01 to a date. -/
def days (d : Date) : Int :=
  daysBeforeYear d.year + daysBeforeMonth d.year d.month + (d.day - 1 : Nat) - epochDay

/-- The year in which the day lies that follows 0001-01-01 after `n` days. The average year length
misses it by at most one. -/
def yearOf (n : Int) : Int :=
  let year := (400 * n).fdiv 146097 + 1
  if n < daysBeforeYear year then year - 1
  else if daysBeforeYear (year + 1) ≤ n then year + 1
  else year

/-- The month, of those from `month` on, and day of a day of the year. -/
def monthOf (year : Int) (month : Nat) (n : Nat) : Nat → Nat × Nat
  | 0 => (month, n + 1)
  | later + 1 =>
    if n < daysInMonth year month then (month, n + 1)
    else monthOf year (month + 1) (n - daysInMonth year month) later

/-- The date of a count of days from 1970-01-01. -/
def ofDays (n : Int) : Date :=
  let n := n + epochDay
  let year := yearOf n
  let (month, day) := monthOf year 1 (n - daysBeforeYear year).toNat 11
  ⟨year, month, day⟩

/-- The first and last year of a date that an instant can have. -/
def inRange (d : Date) : Bool :=
  -262143 ≤ d.year && d.year ≤ 262142

/-- A year with four digits, or with a sign outside of 0 to 9999. -/
def yearText (year : Int) : String :=
  if 0 ≤ year ∧ year ≤ 9999 then Text.padded 4 year.toNat
  else (if year < 0 then "-" else "+") ++ Text.padded 4 year.natAbs

/-- A date as `2024-05-01`. -/
def text (d : Date) : String :=
  yearText d.year ++ "-" ++ Text.padded 2 d.month ++ "-" ++ Text.padded 2 d.day

end Date

namespace Instant

def date (t : Instant) : Date :=
  Date.ofDays (t.seconds.fdiv secondsPerDay)

/-- The instant at a time of day of a date. -/
def ofDate (d : Date) (hour minute second nanos : Nat) : Instant :=
  ⟨d.days * secondsPerDay + (hour * 3600 + minute * 60 + second : Nat), nanos⟩

/-- Hour, minute and second, where a leap second is the sixtieth, as `12:10:03`. -/
def clockText (t : Instant) : String :=
  let second := t.secondOfDay.toNat
  let leap := t.nanos / nanosPerSecond
  Text.padded 2 (second / 3600) ++ ":" ++ Text.padded 2 (second / 60 % 60) ++ ":" ++
    Text.padded 2 (second % 60 + leap)

/-- The part below the second, in as many groups of three digits as it needs. -/
def fractionText (t : Instant) : String :=
  let nanos := t.nanos % nanosPerSecond
  if nanos = 0 then ""
  else if nanos % 1000000 = 0 then "." ++ Text.padded 3 (nanos / 1000000)
  else if nanos % 1000 = 0 then "." ++ Text.padded 6 (nanos / 1000)
  else "." ++ Text.padded 9 nanos

/-- An instant as `2024-05-01T12:10:03.500Z`. -/
def isoText (t : Instant) : String :=
  t.date.text ++ "T" ++ t.clockText ++ t.fractionText ++ "Z"

/-- An instant as `2024-05-01 12:10:03.500 UTC`. -/
def longText (t : Instant) : String :=
  t.date.text ++ " " ++ t.clockText ++ t.fractionText ++ " UTC"

/-- An instant to the second, as `2024-05-01 12:10:03Z`. -/
def secondText (t : Instant) : String :=
  t.date.text ++ " " ++ t.clockText ++ "Z"

end Instant

end RadarFeed
