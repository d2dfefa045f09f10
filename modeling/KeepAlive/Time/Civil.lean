/-!
# The calendar

Dates of the Gregorian calendar, extended to all years, and their numbers as days from the first of
January 1970.  The year is counted from March, so that a leap day is the last day of its year.
-/

namespace KeepAlive.Time

/-- A date of the calendar. -/
structure Date where
  year : Int
  month : Nat
  day : Nat
  deriving DecidableEq, Repr

/-- The days of a year, counted from March, that precede the month with this number from March. -/
def daysBeforeMonth (month : Nat) : Nat :=
  (153 * month + 2) / 5

/-- The days from 1970-01-01 to the first of March of a year. -/
def marchFirst (year : Int) : Int :=
  365 * year + year / 4 - year / 100 + year / 400 - 719468

namespace Date

/-- The number of a date. -/
def toDays (date : Date) : Int :=
  marchFirst (if date.month ≤ 2 then date.year - 1 else date.year) +
    (daysBeforeMonth ((date.month + 9) % 12) + date.day : Nat) - 1

/-- The date with a number. -/
def ofDays (days : Int) : Date :=
  let shifted := days + 719468
  let era := shifted / 146097
  let dayOfEra := (shifted % 146097).toNat
  let yearOfEra := (dayOfEra - dayOfEra / 1460 + dayOfEra / 36524 - dayOfEra / 146096) / 365
  let dayOfYear := dayOfEra - (365 * yearOfEra + yearOfEra / 4 - yearOfEra / 100)
  let monthFromMarch := (5 * dayOfYear + 2) / 153
  let month := if monthFromMarch < 10 then monthFromMarch + 3 else monthFromMarch - 9
  { year := era * 400 + yearOfEra + (if month ≤ 2 then 1 else 0)
    month
    day := dayOfYear - daysBeforeMonth monthFromMarch + 1 }

/-- Whether a year has a 29th of February. -/
def isLeapYear (year : Int) : Bool :=
  year % 4 = 0 && (year % 100 ≠ 0 || year % 400 = 0)

/-- The number of days of a month. -/
def daysInMonth (year : Int) (month : Nat) : Nat :=
  if month = 2 then if isLeapYear year then 29 else 28
  else if month = 4 || month = 6 || month = 9 || month = 11 then 30
  else 31

/-- Whether the calendar has the date. -/
def isValid (date : Date) : Bool :=
  1 ≤ date.month && date.month ≤ 12 && 1 ≤ date.day &&
    date.day ≤ daysInMonth date.year date.month

end Date

end KeepAlive.Time
