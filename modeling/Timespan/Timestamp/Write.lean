/-
  Instants written as ISO 8601 text in UTC, to the millisecond.
-/
import Timespan.Calendar.Fields
import Timespan.Text.Numeral

namespace Timespan

open Timespan.Calendar Timespan.Text

/-- YYYY-MM-DDTHH:MM:SS.mmm of fields in range. -/
def isoText (v : Fields) : List Char :=
  padded 4 v.year.toNat ++ '-' :: padded 2 v.month.toNat ++ '-' :: padded 2 v.day.toNat ++
    'T' :: padded 2 v.hour.toNat ++ ':' :: padded 2 v.minute.toNat ++
    ':' :: padded 2 v.second.toNat ++ '.' :: padded 3 v.milli.toNat

/-- An instant in UTC, if it lies in the calendar. -/
def writeInstant? (t : Int) : Option String :=
  if inCalendar t then some (String.ofList (isoText (Fields.ofWall t) ++ ['Z'])) else none

end Timespan
