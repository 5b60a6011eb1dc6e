/-
  The program: arguments, environment and settings file in, one line out.
-/
import Std.Time.DateTime.Timestamp
import Timespan.CommandLine.Run
import Timespan.Zone.Atlas

namespace Timespan.CommandLine

/-- The settings that the environment holds. -/
def environment : IO (List (String × String)) :=
  ([Setting.utc, .zone, .now, .width].map Setting.key).filterMapM fun key => do
    return (← IO.getEnv key).map (key, ·)

/-- The text of the settings file. A missing file is empty; one that is there and cannot be read is
    an error. -/
def settingsFile : IO String := do
  try IO.FS.readFile ".env"
  catch
    | .noFileOrDirectory .. => return ""
    | fault => throw fault

def readSources : IO Sources := return ⟨← environment, Assignments.read (← settingsFile)⟩

/-- Runs the program with what the process was given, and returns its exit code. -/
def runProcess (arguments : List String) : IO UInt32 := do
  let atlas := Atlas.ofHost ((← IO.getEnv "TZ").getD "UTC0")
  -- Arguments that ask for nothing, or for help, end the program before the settings are looked at.
  let sources ← match readArguments atlas.host arguments with
    | .ok _ => readSources
    | .error _ => pure ⟨[], []⟩
  let clock := (← Std.Time.Timestamp.now).toMillisecondsSinceUnixEpoch.val
  let result := run atlas sources clock arguments
  match result with
  | .printed _ output => IO.print output
  | .refused message => IO.eprintln message
  | .help | .outsideCalendar | .overlongNumeral | .valueNeeded => pure ()
  return result.exitCode.toUInt32

end Timespan.CommandLine

def main (arguments : List String) : IO UInt32 := Timespan.CommandLine.runProcess arguments
