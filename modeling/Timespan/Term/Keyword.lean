/-
  Keywords: the present instant, and the last, this and next day, week, month, quarter and year.
-/
import Timespan.Term.Basic
import Timespan.WallClock

namespace Timespan

open Timespan.Calendar

inductive Period where
  | day | week | month | quarter | year
deriving DecidableEq, Repr

namespace Period

/-- The field in which a period is counted. -/
def grain : Period → Grain
  | .day | .week => .day
  | .month | .quarter => .month
  | .year => .year

/-- The length of a period in units of its grain. -/
def length : Period → Int
  | .day | .month | .year => 1
  | .week => 7
  | .quarter => 3

/-- The fields of the start of the period, for fields in it at its grain: weeks start on Sundays
    and quarters with January, April, July and October. `none` outside the calendar. -/
def start? : Period → Fields → Option Fields
  | .day, v | .month, v | .year, v => some v
  | .week, v => v.weekStart?
  | .quarter, v => v.quarterStart?

/-- The start of the period, or the fields as the ones at fault. -/
def start (p : Period) (v : Fields) : Except Fault Fields :=
  match p.start? v with
  | some s => .ok s
  | none => .error (.fieldsOutOfRange v)

end Period

inductive Relation where
  | last | this | next
deriving DecidableEq, Repr

def Relation.sign : Relation → Int
  | .last => -1
  | .this => 0
  | .next => 1

inductive Keyword where
  | now
  | period (relation : Relation) (period : Period)
deriving DecidableEq, Repr

namespace Keyword

def all : List Keyword :=
  .now :: ([Period.day, .week, .month, .quarter, .year].flatMap fun p =>
    [.period .last p, .period .this p, .period .next p])

def name : Keyword → String
  | .now => "now"
  | .period .last .day => "yesterday"
  | .period .this .day => "today"
  | .period .next .day => "tomorrow"
  | .period .last .week => "lastweek"
  | .period .this .week => "thisweek"
  | .period .next .week => "nextweek"
  | .period .last .month => "lastmonth"
  | .period .this .month => "thismonth"
  | .period .next .month => "nextmonth"
  | .period .last .quarter => "lastquarter"
  | .period .this .quarter => "thisquarter"
  | .period .next .quarter => "nextquarter"
  | .period .last .year => "lastyear"
  | .period .this .year => "thisyear"
  | .period .next .year => "nextyear"

def ofName? (word : List Char) : Option Keyword := all.find? fun k => k.name.toList == word

/-- The period that stands in a relation to the one in which the clock's fields at `origin` lie:
    the fields are cut to the grain, moved by whole periods, and then brought to the start. -/
def periodInterval (c : WallClock) (origin : Int) (r : Relation) (p : Period) :
    Except Fault Interval := do
  let v ← c.fieldsAt origin
  let s ← p.start (v.truncate p.grain (r.sign * p.length))
  c.interval s p.grain p.length

def resolve (c : WallClock) (origin : Int) : Keyword → Except Fault Term
  | .now => .ok (.now origin)
  | .period r p => (periodInterval c origin r p).map .interval

/-- The term that a word stands for. -/
def resolveWord (c : WallClock) (origin : Int) (word : List Char) : Except Fault Term :=
  match ofName? word with
  | some k => k.resolve c origin
  | none => .error (.rejected (.unknownToken (String.ofList word)))

end Keyword

end Timespan
