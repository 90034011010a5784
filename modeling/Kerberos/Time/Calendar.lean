/-! # The civil calendar

    Days of the proleptic Gregorian calendar, counted from 1 January of year 0.  Both
    directions go through `daysBeforeYear`: the year of a day is estimated from the mean
    length of a year and then moved by at most one, and the month is found by walking the
    twelve month lengths. -/

namespace Kerberos

/-- A date and a time of day, to the second. -/
structure CivilTime where
  year : Int
  month : Nat
  day : Nat
  hour : Nat
  minute : Nat
  second : Nat
  deriving DecidableEq, Repr

namespace Calendar

/-- Every fourth year is long, but of the hundreds only every fourth. -/
def isLeap (year : Int) : Bool :=
  year % 4 == 0 && (year % 100 != 0 || year % 400 == 0)

def monthLengths (leap : Bool) : List Nat :=
  [31, if leap then 29 else 28, 31, 30, 31, 30, 31, 31, 30, 31, 30, 31]

/-- The number of days from 1 January of year 0 to 1 January of `year`. -/
def daysBeforeYear (year : Int) : Int :=
  365 * year + (year + 3) / 4 - (year + 99) / 100 + (year + 399) / 400

/-- The year of a day: 400 years have 146097 days, so the quotient is off by at most one. -/
def yearOfDay (day : Int) : Int :=
  let guess := day * 400 / 146097
  if day < daysBeforeYear guess then guess - 1
  else if daysBeforeYear (guess + 1) ≤ day then guess + 1
  else guess

/-- Splits a day of the year into the number of months passed and the days passed in the next one. -/
def splitMonths : (lengths : List Nat) → (dayOfYear : Nat) → Nat × Nat
  | [], dayOfYear => (0, dayOfYear)
  | length :: lengths, dayOfYear =>
    if dayOfYear < length then (0, dayOfYear)
    else
      let (months, days) := splitMonths lengths (dayOfYear - length)
      (months + 1, days)

/-- The day number of a date. -/
def dayOfDate (year : Int) (month day : Nat) : Int :=
  let passed := (monthLengths (isLeap year)).take (month - 1)
  daysBeforeYear year + (passed.foldl (· + ·) 0 + (day - 1) : Nat)

/-- Whether the month exists and has such a day. -/
def dateExists (year : Int) (month day : Nat) : Bool :=
  1 ≤ month && 1 ≤ day &&
    match (monthLengths (isLeap year))[month - 1]? with
    | some length => day ≤ length
    | none => false

end Calendar

namespace CivilTime

/-- The civil time that lies `seconds` after the start of year 0. -/
def ofSeconds (seconds : Int) : CivilTime :=
  let day := seconds / 86400
  let rest := (seconds % 86400).toNat
  let year := Calendar.yearOfDay day
  let dayOfYear := (day - Calendar.daysBeforeYear year).toNat
  let (months, days) := Calendar.splitMonths (Calendar.monthLengths (Calendar.isLeap year)) dayOfYear
  { year, month := months + 1, day := days + 1
    hour := rest / 3600, minute := rest / 60 % 60, second := rest % 60 }

/-- The seconds from the start of year 0. -/
def toSeconds (c : CivilTime) : Int :=
  Calendar.dayOfDate c.year c.month c.day * 86400 + (c.hour * 3600 + c.minute * 60 + c.second : Nat)

end CivilTime

end Kerberos
