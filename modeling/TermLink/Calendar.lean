import TermLink.Text.Integer

/-!
# Calendar dates

The date and time of an instant, which is given in seconds since the beginning of 1970 in universal
time. The Gregorian calendar is carried on in both directions.

## Implementation notes

Years are counted from March, so that the day that leap years add is the last one of a year, and
in eras of 400 years, which all have the same number of days.
-/

namespace TermLink

/-- An instant, in seconds since the beginning of 1970. -/
abbrev Instant := Int

/-- A date and a time of day. -/
structure CalendarTime where
  year : Int
  month : Nat
  day : Nat
  hour : Nat
  minute : Nat
  second : Nat
  deriving DecidableEq, Repr

namespace CalendarTime

/-- The days of 400 years. -/
def daysOfEra : Nat := 146097

/-- The days from the first of March of the year 0 to the beginning of 1970. -/
def daysTo1970 : Int := 719468

/-- The year within an era, counted from March, of a day of the era. -/
def yearOfEra (day : Nat) : Nat :=
  (day - day / 1460 + day / 36524 - day / 146096) / 365

/-- The date and time of an instant. -/
def ofInstant (t : Instant) : CalendarTime :=
  let day := t / 86400 + daysTo1970
  let clock := (t % 86400).toNat
  let era := day / daysOfEra
  let dayOfEra := (day % daysOfEra).toNat
  let year := yearOfEra dayOfEra
  let dayOfYear := dayOfEra - (365 * year + year / 4 - year / 100)
  let fromMarch := (5 * dayOfYear + 2) / 153
  let month := if fromMarch < 10 then fromMarch + 3 else fromMarch - 9
  { year := era * 400 + year + (if month ≤ 2 then 1 else 0)
    month
    day := dayOfYear - (153 * fromMarch + 2) / 5 + 1
    hour := clock / 3600
    minute := clock / 60 % 60
    second := clock % 60 }

/-- The first and the last year that are written as dates. -/
def firstYear : Int := -262143

/-- The last year that is written as a date. -/
def lastYear : Int := 262142

/-- The digits of a number, with zeros in front up to a width. -/
def padded (width n : Nat) : List Char :=
  let ds := Text.digits n
  List.replicate (width - ds.length) '0' ++ ds

/-- The year in at least four digits, with a sign where there are not just four. -/
def yearText (year : Int) : List Char :=
  if year < 0 then '-' :: padded 4 year.natAbs
  else if 9999 < year then '+' :: padded 4 year.natAbs
  else padded 4 year.natAbs

/-- The text of a date and time. -/
def render (c : CalendarTime) : String :=
  String.ofList (yearText c.year ++ '-' :: padded 2 c.month ++ '-' :: padded 2 c.day
    ++ ' ' :: padded 2 c.hour ++ ':' :: padded 2 c.minute ++ ':' :: padded 2 c.second
    ++ [' ', 'U', 'T', 'C'])

end CalendarTime

/-- The text of an instant: its date and time, or the bare number outside the years that are
written as dates. -/
def Instant.render (t : Instant) : String :=
  let c := CalendarTime.ofInstant t
  if CalendarTime.firstYear ≤ c.year ∧ c.year ≤ CalendarTime.lastYear then c.render
  else String.ofList (Text.signedDigits t)

end TermLink
