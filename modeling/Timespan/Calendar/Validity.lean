/-
  Valid dates and times of day, and the first field at fault in others.
-/
import Timespan.Calendar.Fields

namespace Timespan.Calendar

inductive FieldFault where
  | year (value : Int)
  | month
  | day
  | hour
  | minute
  | second
deriving DecidableEq, Repr

def FieldFault.message : FieldFault → String
  | .year value => s!"year {value} is out of range"
  | .month => "month must be in 1..12"
  | .day => "day is out of range for month"
  | .hour => "hour must be in 0..23"
  | .minute => "minute must be in 0..59"
  | .second => "second must be in 0..59"

/-- The first of the fields, coarsest first, that is out of range; milliseconds are not looked at. -/
def Fields.fault? (v : Fields) : Option FieldFault :=
  if ¬(1 ≤ v.year ∧ v.year ≤ 9999) then some (.year v.year)
  else if ¬(1 ≤ v.month ∧ v.month ≤ 12) then some .month
  else if ¬(1 ≤ v.day ∧ v.day ≤ monthLength v.year v.month) then some .day
  else if ¬(0 ≤ v.hour ∧ v.hour ≤ 23) then some .hour
  else if ¬(0 ≤ v.minute ∧ v.minute ≤ 59) then some .minute
  else if ¬(0 ≤ v.second ∧ v.second ≤ 59) then some .second
  else none

end Timespan.Calendar
