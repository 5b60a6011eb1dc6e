/-
  What the program prints, and how it ends.
-/
import Timespan.CommandLine.Options
import Timespan.Settings.Load
import Timespan.Vacancy

namespace Timespan.CommandLine

/-- An object on one line, its members in the order given and their values already written. -/
def jsonObject (members : List (String × String)) : String :=
  "\x7b" ++ ", ".intercalate (members.map fun (k, v) => Text.jsonString k ++ ": " ++ v) ++ "\x7d"

def jsonInstant : Option Int → String
  | some t => toString t
  | none => "null"

def jsonSpan (s : Span) : String :=
  jsonObject [("start", jsonInstant s.start?), ("end", jsonInstant s.stop?)]

def jsonReport (r : Report) : String :=
  jsonObject [("value", jsonObject [("from", jsonInstant r.first?), ("to", jsonInstant r.last?),
    ("timeRange", Text.jsonString r.text)])]

def jsonRejection (cause : Rejection) : String :=
  jsonObject [("error", Text.jsonString cause.message)]

/-- How a run ends. -/
inductive Result where
  | printed (code : Nat) (output : String)
  | help
  | refused (message : String)
  | outsideCalendar
  | overlongNumeral
  /-- An option was given nothing where a value is needed. -/
  | valueNeeded
deriving DecidableEq, Repr

/-- The exit code of the program. -/
def Result.exitCode : Result → Nat
  | .printed code _ => code
  | .help => 0
  | .refused _ => 2
  | .outsideCalendar | .overlongNumeral | .valueNeeded => 1

/-- The configuration with the given options in place of the settings; nothing in place of a zone
    is no zone. -/
def Invocation.override (i : Invocation) (c : Config) : Config :=
  { utc := i.utc || c.utc
    zone? := match i.zone? with
      | some zone => zone.value?
      | none => c.zone?
    now? := (i.now?.bind Given.value?).or c.now?
    width := (i.width?.bind Given.value?).getD c.width }

/-- The values that the invocation was given nothing for. -/
def Invocation.vacancy (i : Invocation) : Vacancy :=
  ⟨i.now? = some .nothing, i.width? = some .nothing⟩

def printedRejection (cause : Rejection) : Result := .printed 1 (jsonRejection cause ++ "\n")

/-- The line that an invocation prints, with the exit code of the program. -/
def Invocation.answer (atlas : Atlas) (config : Config) (clock : Int) (i : Invocation) : Result :=
  if i.exclusive then
    match resolve atlas config clock i.expression? with
    | .ok s => if s.isWritable then .printed 0 (jsonSpan s ++ "\n") else .overlongNumeral
    | .error (.rejected cause) => printedRejection cause
    | .error .overlongNumeral => .overlongNumeral
  else
    match interpret atlas config clock i.expression? with
    | .ok (.found r) =>
      if r.isWritable then .printed 0 (jsonReport r ++ "\n") else .overlongNumeral
    | .ok (.rejected cause) => printedRejection cause
    | .error _ => .overlongNumeral

/-- A bound that stands for a missing present instant, as an empty list. -/
def jsonVacant : Option Int → String
  | some _ => "[]"
  | none => "null"

/-- The line for a range whose bounds stand for a missing present instant. An inclusive end would
    have to be reckoned from it. -/
def Invocation.vacantSpan (i : Invocation) (s : Span) : Result :=
  let first := jsonVacant s.start?
  let last := jsonVacant s.stop?
  if i.exclusive then .printed 0 (jsonObject [("start", first), ("end", last)] ++ "\n")
  else if s.stop?.isSome then .valueNeeded
  else .printed 0 (jsonObject [("value", jsonObject [("from", first), ("to", last),
    ("timeRange", Text.jsonString (i.expression?.getD ""))])] ++ "\n")

/-- The same where an option was given nothing. -/
def Invocation.vacantAnswer (atlas : Atlas) (config : Config) (clock : Int) (i : Invocation) :
    Result :=
  match i.vacancy.resolve atlas config clock i.expression? with
  | .error .valueNeeded => .valueNeeded
  | .error (.fault (.rejected cause)) => printedRejection cause
  | .error (.fault .overlongNumeral) => .overlongNumeral
  | .ok s => if i.vacancy.now then i.vacantSpan s else i.answer atlas config clock

def Invocation.run (atlas : Atlas) (config : Config) (clock : Int) (i : Invocation) : Result :=
  if i.vacancy = ⟨false, false⟩ then i.answer atlas config clock
  else i.vacantAnswer atlas config clock

def refusal (speaker message : String) : Result := .refused (speaker ++ ": error: " ++ message)

/-- The program. Arguments are read first, then the settings, and only then the expression. -/
def run (atlas : Atlas) (sources : Sources) (clock : Int) (arguments : List String) : Result :=
  match readArguments atlas.host arguments with
  | .error .help => .help
  | .error (.refused speaker message) => refusal speaker message
  | .error .outsideCalendar => .outsideCalendar
  | .ok i =>
    match Config.load atlas sources with
    | .error fault =>
      match fault.message? with
      | some message => refusal program message
      | none => .outsideCalendar
    | .ok config => i.run atlas (i.override config) clock

end Timespan.CommandLine
