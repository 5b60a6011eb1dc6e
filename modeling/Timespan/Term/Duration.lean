/-
  Durations: a count and a unit of fixed length.
-/
import Timespan.Rejection
import Timespan.Text.LetterCase
import Timespan.Text.Lines

namespace Timespan

inductive DurationUnit where
  | year | month | day | hour | minute | second
deriving DecidableEq, Repr

namespace DurationUnit

def all : List DurationUnit := [.year, .month, .day, .hour, .minute, .second]

/-- A month is always 31 days long, and a year 365. -/
def millis : DurationUnit → Int
  | .year => 365 * 86400000
  | .month => 31 * 86400000
  | .day => 86400000
  | .hour => 3600000
  | .minute => 60000
  | .second => 1000

def aliases : DurationUnit → List String
  | .year => ["y", "yr", "yrs", "year", "years"]
  | .month => ["mo", "mon", "mos", "mons", "month", "months"]
  | .day => ["d", "dy", "dys", "day", "days"]
  | .hour => ["h", "hr", "hrs", "hour", "hours"]
  | .minute => ["m", "min", "mins", "minute", "minutes"]
  | .second => ["s", "sec", "secs", "second", "seconds"]

/-- The unit of an alias in lower case. -/
def ofAlias? (word : List Char) : Option DurationUnit :=
  all.find? fun u => u.aliases.any fun a => a.toList == word

/-- The unit that a text names, whatever its case and blanks. -/
def named? (text : List Char) : Option DurationUnit :=
  ofAlias? ((Text.squeeze text).map Text.lower)

end DurationUnit

namespace Duration

/-- The length of a number of units in milliseconds. -/
def millis (count : Int) (unit : List Char) : Except Rejection Int :=
  match DurationUnit.named? unit with
  | some u => .ok (count * u.millis)
  | none => .error (.unknownUnit (String.ofList unit))

end Duration

/-- A duration as written: a digit run and a word. -/
structure DurationForm where
  digits : List Char
  unit : List Char
deriving DecidableEq, Repr

namespace DurationForm

/-- Digits, at most one space, and a word of lower-case letters. -/
def read? (cs : List Char) : Option DurationForm :=
  let digits := cs.takeWhile Text.isDigit
  let unit := match cs.dropWhile Text.isDigit with
    | ' ' :: rest => rest
    | rest => rest
  if digits.isEmpty || unit.isEmpty || !unit.all Text.isLowerLetter then none
  else some ⟨digits, unit⟩

/-- A duration with or without a line feed at its end. -/
def ofLine? (cs : List Char) : Option DurationForm := read? (Text.chomp cs)

def millis (d : DurationForm) : Except Fault Int :=
  if d.digits.length ≤ Text.maxDigits then
    (Duration.millis (Text.digitsValue d.digits) d.unit).mapError .rejected
  else .error .overlongNumeral

end DurationForm

end Timespan
