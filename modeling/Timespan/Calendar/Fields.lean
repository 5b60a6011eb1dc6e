/-
  Calendar fields: seven integers, year to millisecond, that need not be in range. They denote a
  wall time, a number of milliseconds since 1970-01-01T00:00 on some wall clock, after rolling
  over: months into years, then everything below linearly.
-/
import Timespan.Calendar.Date

namespace Timespan.Calendar

/-- The size of a calendar field, coarsest first. -/
inductive Grain where
  | year | month | day | hour | minute | second | milli
deriving DecidableEq, Repr

def Grain.index : Grain → Nat
  | .year => 0
  | .month => 1
  | .day => 2
  | .hour => 3
  | .minute => 4
  | .second => 5
  | .milli => 6

def Grain.all : List Grain := [.year, .month, .day, .hour, .minute, .second, .milli]

def Grain.ofIndex? (i : Int) : Option Grain := Grain.all.find? fun g => (g.index : Int) = i

structure Fields where
  year : Int
  month : Int
  day : Int
  hour : Int
  minute : Int
  second : Int
  milli : Int
deriving DecidableEq, Repr

namespace Fields

def toList (v : Fields) : List Int :=
  [v.year, v.month, v.day, v.hour, v.minute, v.second, v.milli]

def get (v : Fields) : Grain → Int
  | .year => v.year
  | .month => v.month
  | .day => v.day
  | .hour => v.hour
  | .minute => v.minute
  | .second => v.second
  | .milli => v.milli

/-- The fields with `n` added to one of them. -/
def add (v : Fields) (g : Grain) (n : Int) : Fields :=
  match g with
  | .year => { v with year := v.year + n }
  | .month => { v with month := v.month + n }
  | .day => { v with day := v.day + n }
  | .hour => { v with hour := v.hour + n }
  | .minute => { v with minute := v.minute + n }
  | .second => { v with second := v.second + n }
  | .milli => { v with milli := v.milli + n }

/-- The fields with every field finer than the grain at its first value. -/
def floor (v : Fields) : Grain → Fields
  | .year => ⟨v.year, 1, 1, 0, 0, 0, 0⟩
  | .month => ⟨v.year, v.month, 1, 0, 0, 0, 0⟩
  | .day => ⟨v.year, v.month, v.day, 0, 0, 0, 0⟩
  | .hour => ⟨v.year, v.month, v.day, v.hour, 0, 0, 0⟩
  | .minute => ⟨v.year, v.month, v.day, v.hour, v.minute, 0, 0⟩
  | .second => ⟨v.year, v.month, v.day, v.hour, v.minute, v.second, 0⟩
  | .milli => v

/-- The fields cut to a grain and moved by `n` units of it. -/
def truncate (v : Fields) (g : Grain) (n : Int) : Fields := (v.floor g).add g n

end Fields

def dayMillis : Int := 86400000

def hourMillis : Int := 3600000

def minuteMillis : Int := 60000

def secondMillis : Int := 1000

/-- The first wall time of the calendar, 0001-01-01T00:00:00.000. -/
def firstWall : Int := -62135596800000

/-- The last wall time of the calendar, 9999-12-31T23:59:59.999. -/
def lastWall : Int := 253402300799999

/-- The calendar covers the years 1 to 9999. -/
def inCalendar (w : Int) : Bool := firstWall ≤ w && w ≤ lastWall

namespace Fields

/-- Year and month after carrying months into years. -/
def carriedYear (v : Fields) : Int := (v.year * 12 + (v.month - 1)) / 12

def carriedMonth (v : Fields) : Int := (v.year * 12 + (v.month - 1)) % 12 + 1

/-- Milliseconds from the start of the carried month. -/
def millisInMonth (v : Fields) : Int :=
  (v.day - 1) * dayMillis + v.hour * hourMillis + v.minute * minuteMillis +
    v.second * secondMillis + v.milli

/-- The wall time that the fields denote, wherever it lies. -/
def rolled (v : Fields) : Int :=
  monthStart v.carriedYear v.carriedMonth * dayMillis + v.millisInMonth

/-- The wall time that the fields denote. Both the carried month and the wall time itself have
    to lie in the calendar. -/
def wall? (v : Fields) : Option Int :=
  if 1 ≤ v.carriedYear ∧ v.carriedYear ≤ 9999 ∧ inCalendar v.rolled then some v.rolled else none

/-- The fields, all in range, that show a wall time. -/
def ofWall (w : Int) : Fields :=
  let date := Date.ofDayNumber (w / dayMillis)
  let ms := w % dayMillis
  { year := date.year
    month := date.month
    day := date.day
    hour := ms / hourMillis
    minute := ms / minuteMillis % 60
    second := ms / secondMillis % 60
    milli := ms % 1000 }

/-- The Sunday on or before the fields' date, reached by lowering the day field alone. -/
def weekStart? (v : Fields) : Option Fields :=
  v.wall?.map fun w => { v with day := v.day - weekday (w / dayMillis) }

/-- The fields with year and month set to the first month of the quarter in which they lie. -/
def quarterStart? (v : Fields) : Option Fields :=
  v.wall?.map fun w =>
    let date := Date.ofDayNumber (w / dayMillis)
    { v with year := date.year, month := (date.month - 1) / 3 * 3 + 1 }

end Fields

end Timespan.Calendar
