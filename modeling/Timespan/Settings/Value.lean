/-
  Values of settings as text: switches, instants and widths.
-/
import Timespan.Text.LetterCase
import Timespan.Text.Quoted
import Timespan.Timestamp.Read

namespace Timespan

/-- Why a text is no value of a setting. -/
inductive ValueFault where
  | notBoolean (text : String)
  | negativeWidth (width : Int)
  | malformed
  /-- An instant outside the calendar: the one fault that is not a matter of form. -/
  | outsideCalendar
deriving DecidableEq, Repr

/-- The wording of a fault that has one. -/
def ValueFault.message? : ValueFault → Option String
  | .notBoolean text => some ("expected a boolean, got " ++ Text.quoted text)
  | .negativeWidth width => some s!"range must not be negative, got {width}"
  | .malformed | .outsideCalendar => none

namespace Value

def trueWords : List String := ["1", "true", "yes", "on"]

def falseWords : List String := ["0", "false", "no", "off", ""]

/-- A switch, in any case and with any blanks around it. -/
def switch (text : String) : Except ValueFault Bool :=
  let word := String.ofList ((Text.trim text.toList).map Text.lower)
  if trueWords.contains word then .ok true
  else if falseWords.contains word then .ok false
  else .error (.notBoolean text)

def instant (host : Zone) (text : String) : Except ValueFault Int :=
  match readInstant host text.toList with
  | .ok t => .ok t
  | .error .malformed => .error .malformed
  | .error .outsideCalendar => .error .outsideCalendar

/-- A number of milliseconds that is not negative. -/
def width (text : String) : Except ValueFault Int :=
  match Text.integer? text.toList with
  | none => .error .malformed
  | some n => if n < 0 then .error (.negativeWidth n) else .ok n

end Value

end Timespan
