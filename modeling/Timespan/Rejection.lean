/-
  Why an expression has no range: the causes, their kinds and their wording. Beside them stands
  the one failure that is no verdict on an expression, a numeral that is too long.
-/
import Timespan.Calendar.Validity
import Timespan.Text.Numeral

namespace Timespan

open Timespan.Calendar

inductive Rejection where
  | emptyInput
  | unknownToken (word : String)
  | unknownTerm (text : String)
  | unknownUnit (unit : String)
  | unknownZone (name : String)
  | ambiguousOperator (text : String)
  | noTerm
  | operatorAlone
  | durationAlone
  | nothingToWiden
  | widthExpected
  | invalidDate (literal : String) (fault : FieldFault)
  | fieldsOutOfRange (fields : Fields)
  | instantOutOfRange (instant : Int)
deriving DecidableEq, Repr

namespace Rejection

/-- The classes into which causes fall for a caller. -/
inductive Kind where
  | emptyInput | unknownToken | unknownTerm | unknownUnit | unknownZone | missingDuration
  | missingTerm | ambiguousOperator | outOfRange
deriving DecidableEq, Repr

def Kind.name : Kind → String
  | .emptyInput => "empty_input"
  | .unknownToken => "unknown_token"
  | .unknownTerm => "unknown_term"
  | .unknownUnit => "unknown_unit"
  | .unknownZone => "unknown_zone"
  | .missingDuration => "missing_duration"
  | .missingTerm => "missing_term"
  | .ambiguousOperator => "ambiguous_operator"
  | .outOfRange => "out_of_range"

def kind : Rejection → Kind
  | .emptyInput => .emptyInput
  | .unknownToken _ => .unknownToken
  | .unknownTerm _ => .unknownTerm
  | .unknownUnit _ => .unknownUnit
  | .unknownZone _ => .unknownZone
  | .ambiguousOperator _ => .ambiguousOperator
  | .noTerm | .operatorAlone | .durationAlone | .nothingToWiden => .missingTerm
  | .widthExpected => .missingDuration
  | .invalidDate _ _ | .fieldsOutOfRange _ | .instantOutOfRange _ => .outOfRange

def message : Rejection → String
  | .emptyInput => "Invalid or empty time range"
  | .unknownToken word => s!"unknown token {word}"
  | .unknownTerm text => s!"unknown term {text}"
  | .unknownUnit unit => s!"unknown duration unit {unit}"
  | .unknownZone name => s!"unknown time zone {name}"
  | .ambiguousOperator text => s!"more than one range operator in {text}"
  | .noTerm => "no term given"
  | .operatorAlone => "range operator without terms"
  | .durationAlone => "a duration needs a date or time to extend"
  | .nothingToWiden => "'<>' needs a date or time before it"
  | .widthExpected => "second term did not have a range"
  | .invalidDate literal fault => "invalid date " ++ literal ++ ": " ++ fault.message
  | .fieldsOutOfRange v =>
    "date out of range: [" ++ ", ".intercalate (v.toList.map toString) ++ "]"
  | .instantOutOfRange t => s!"instant out of range: {t}"

end Rejection

/-- What can go wrong on the way to a range. A cause that would have to write a numeral longer than
    `Text.maxDigits` gives way to `overlongNumeral`, as does a duration that long. -/
inductive Fault where
  | rejected (cause : Rejection)
  | overlongNumeral
deriving DecidableEq, Repr

namespace Fault

def instantOutOfRange (t : Int) : Fault :=
  if Text.writable t then .rejected (.instantOutOfRange t) else .overlongNumeral

def fieldsOutOfRange (v : Fields) : Fault :=
  if v.toList.all Text.writable then .rejected (.fieldsOutOfRange v) else .overlongNumeral

end Fault

end Timespan
