/-!
# The calendar

Dates of the Gregorian calendar, extended to all days before and after its use, and the
form in which the logs show a time.

Years are counted from March here, so that the day in question for leap years is the last
one of a year; 400 such years form an era of 146097 days.
-/

namespace IslandPlots

/-- A date. -/
structure Date where
  year : Int
  month : Nat
  day : Nat
deriving DecidableEq

namespace Date

/-- The number of days in an era of 400 years. -/
def daysPerEra : Int := 146097

/-- The number of days from the first of March of the year 0 to the beginning of 1970. -/
def epoch : Int := 719468

/-- The year of an era to which day `n` of the era belongs, counted from zero. -/
def yearOfEra (n : Nat) : Nat :=
  (n - n / 1460 + n / 36524 - n / 146096) / 365

/-- The date that lies `days` days after the first of January 1970. -/
def ofDays (days : Int) : Date :=
  let shifted := days + epoch
  let era := shifted / daysPerEra
  let dayOfEra := (shifted % daysPerEra).toNat
  let yearOfEra := yearOfEra dayOfEra
  let dayOfYear := dayOfEra - (365 * yearOfEra + yearOfEra / 4 - yearOfEra / 100)
  let monthFromMarch := (5 * dayOfYear + 2) / 153
  let day := dayOfYear - (153 * monthFromMarch + 2) / 5 + 1
  let month := if monthFromMarch < 10 then monthFromMarch + 3 else monthFromMarch - 9
  { year := yearOfEra + era * 400 + (if month ≤ 2 then 1 else 0), month, day }

/-- The date with its year as a signed 32-bit number, which years out of range wrap
around. -/
def wrapYear (date : Date) : Date :=
  { date with year := date.year.bmod 4294967296 }

end Date

/-- The numeral of `n`, filled up with zeros on the left to a width. -/
def padded (width n : Nat) : String :=
  let digits := toString n
  String.ofList (List.replicate (width - digits.length) '0') ++ digits

/-- The numeral of a year, filled up with zeros between the sign and the digits to a width
of four. -/
def yearText (year : Int) : String :=
  if year < 0 then "-" ++ padded 3 year.natAbs else padded 4 year.natAbs

/-- The form in which the logs show the time `seconds` after the beginning of 1970, in
universal time.  Times before it are shown as that beginning. -/
def timeText (seconds : Int) : String :=
  let seconds := seconds.toNat
  let date := (Date.ofDays (seconds / 86400 : Nat)).wrapYear
  let ofDay := seconds % 86400
  s!"{yearText date.year}-{padded 2 date.month}-{padded 2 date.day} "
    ++ s!"{padded 2 (ofDay / 3600)}:{padded 2 (ofDay % 3600 / 60)}:{padded 2 (ofDay % 60)}"

end IslandPlots
