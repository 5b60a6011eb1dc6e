/-
  The proleptic Gregorian calendar on all integers: leap years, month lengths, and the day number
  of a date, with day 0 = 1970-01-01.
-/

namespace Timespan.Calendar

def isLeap (year : Int) : Bool :=
  year % 4 = 0 && (year % 100 ≠ 0 || year % 400 = 0)

/-- Days from 0001-01-01 to the first day of `year`. -/
def daysBeforeYear (year : Int) : Int :=
  365 * (year - 1) + (year - 1) / 4 - (year - 1) / 100 + (year - 1) / 400

/-- Days that a leap year has more. -/
def leapDay (leap : Bool) : Int := if leap then 1 else 0

/-- Days of a year before the first of `month` (1 to 13). From March on five months have 153 days,
    spread as evenly as whole days can be. -/
def daysBeforeMonth (leap : Bool) (month : Int) : Int :=
  if month ≤ 2 then 31 * (month - 1) else 59 + leapDay leap + (153 * (month - 3) + 2) / 5

def monthLength (year month : Int) : Int :=
  daysBeforeMonth (isLeap year) (month + 1) - daysBeforeMonth (isLeap year) month

/-- Days from 0001-01-01 to 1970-01-01. -/
def epochDay : Int := 719162

/-- The number of the first day of a month (1 to 12). -/
def monthStart (year month : Int) : Int :=
  daysBeforeYear year + daysBeforeMonth (isLeap year) month - epochDay

structure Date where
  year : Int
  month : Int
  day : Int
deriving DecidableEq, Repr

def Date.dayNumber (d : Date) : Int := monthStart d.year d.month + (d.day - 1)

/-- The year in which the `n`th day after 0001-01-01 lies. Days per year average 146097 / 400, so
    the quotient is at most one year off. -/
def yearOf (n : Int) : Int :=
  let y := n * 400 / 146097 + 1
  if n < daysBeforeYear y then y - 1
  else if daysBeforeYear (y + 1) ≤ n then y + 1
  else y

/-- The month in which the `n`th day after New Year lies. -/
def monthOf (leap : Bool) (n : Int) : Int :=
  if n < 31 then 1
  else if n < 59 + leapDay leap then 2
  else 3 + (5 * (n - 59 - leapDay leap) + 2) / 153

/-- The date with the given day number. -/
def Date.ofDayNumber (n : Int) : Date :=
  let k := n + epochDay
  let year := yearOf k
  let dayOfYear := k - daysBeforeYear year
  let month := monthOf (isLeap year) dayOfYear
  ⟨year, month, dayOfYear - daysBeforeMonth (isLeap year) month + 1⟩

/-- Days since the last Sunday, for a day number; 1970-01-01 was a Thursday. -/
def weekday (n : Int) : Int := (n + 4) % 7

/-- The Monday that starts week 1 of the ISO year: the week that holds 4 January. -/
def isoYearStart (year : Int) : Int :=
  let n := monthStart year 1 + 3
  n - (weekday n + 6) % 7

/-- The day number of an ISO week date; `none` where the year has no such week, or the week no
    such day. -/
def isoWeekDay? (year week day : Int) : Option Int :=
  let start := isoYearStart year
  let weeks := (isoYearStart (year + 1) - start) / 7
  if 1 ≤ week ∧ week ≤ weeks ∧ 1 ≤ day ∧ day ≤ 7 then some (start + (week - 1) * 7 + (day - 1))
  else none

end Timespan.Calendar
