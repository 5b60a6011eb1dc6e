/-
  Yearly rules for daylight saving time: a standard offset and, for some zones, a summer offset
  with the two changes of every year.
-/
import Timespan.Calendar.Date
import Timespan.Zone.Basic

namespace Timespan.Zone

open Timespan.Calendar

/-- A change of the clocks on a weekday of a month (0 = Sunday), in its first to fourth week or,
    with week 5, its last; `time` is the wall time before the change, in seconds of that day. -/
structure Changeover where
  month : Int
  week : Int
  weekday : Int
  time : Int
deriving DecidableEq, Repr

/-- The day on which the change falls in a year. -/
def Changeover.dayIn (c : Changeover) (year : Int) : Int :=
  let first := monthStart year c.month
  let day := (c.weekday - Calendar.weekday first) % 7 + (c.week - 1) * 7
  first + (if day < monthLength year c.month then day else day - 7)

/-- The wall time of the change in a year. -/
def Changeover.wallIn (c : Changeover) (year : Int) : Int := c.dayIn year * 86400 + c.time

structure Summer where
  offset : Int
  starts : Changeover
  stops : Changeover
deriving DecidableEq, Repr

structure Rule where
  standard : Int
  summer? : Option Summer
deriving DecidableEq, Repr

/-- The offset that a rule gives at a second. South of the equator summer lies around New Year,
    and winter is the time between its end and its start. -/
def Rule.offsetAt (r : Rule) (u : Int) : Int :=
  match r.summer? with
  | none => r.standard
  | some s =>
    let year := (Date.ofDayNumber (u / 86400)).year
    let start := s.starts.wallIn year - r.standard
    let stop := s.stops.wallIn year - s.offset
    let inSummer := if start < stop then start ≤ u ∧ u < stop else ¬(stop ≤ u ∧ u < start)
    if inSummer then s.offset else r.standard

def ofRule (r : Rule) : Zone := ⟨r.offsetAt⟩

end Timespan.Zone
