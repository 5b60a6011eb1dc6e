/-
  Settings from the environment and a settings file.
-/
import Timespan.Interpreter
import Timespan.Settings.Assignments
import Timespan.Settings.Value

namespace Timespan

inductive Setting where
  | utc | zone | now | width
deriving DecidableEq, Repr

/-- The name of the environment variable, and of the key in a settings file. -/
def Setting.key : Setting → String
  | .utc => "TIME_RANGE_UTC"
  | .zone => "TIME_RANGE_TZ"
  | .now => "TIME_RANGE_NOW"
  | .width => "TIME_RANGE_DEFAULT_RANGE_MS"

/-- Where settings come from: the variables of the environment, and the assignments of a file. -/
structure Sources where
  environment : List (String × String)
  file : List (String × String)
deriving DecidableEq, Repr

/-- The text of a setting: that of the environment unless it is empty, else that of the file. -/
def Sources.text? (s : Sources) (setting : Setting) : Option String :=
  ((s.environment.lookup setting.key).filter (· ≠ "")).or (Assignments.find? s.file setting.key)

inductive SettingsFault where
  | invalid (settings : List Setting)
  /-- The present instant is a reading of the host's clock outside the calendar. -/
  | outsideCalendar
deriving DecidableEq, Repr

def SettingsFault.message? : SettingsFault → Option String
  | .invalid settings =>
    some ("Invalid settings: " ++ ", ".intercalate (settings.map Setting.key) ++
      ". Fix them in the environment or the .env file.")
  | .outsideCalendar => none

/-- What the text of a setting comes to: nothing if it is absent, a value, or a fault. -/
def readSetting {α : Type} (text? : Option String) (read : String → Except ValueFault α) :
    Except ValueFault (Option α) :=
  match text? with
  | none => .ok none
  | some text => (read text).map some

def knownZone (atlas : Atlas) (name : String) : Except ValueFault String :=
  if (atlas.named? name).isSome then .ok name else .error .malformed

/-- The malformed settings among the four. -/
def malformed (results : List (Setting × Bool)) : List Setting :=
  results.filterMap fun (s, ok) => if ok then none else some s

/-- The settings, each read by itself; absent ones keep their default, and so do empty ones but
    for the switch, for which the empty text means no. -/
def Config.load (atlas : Atlas) (sources : Sources) : Except SettingsFault Config :=
  let filled (s : Setting) : Option String := (sources.text? s).filter (· ≠ "")
  let utc := readSetting (sources.text? .utc) Value.switch
  let zone := readSetting (filled .zone) (knownZone atlas)
  let now := readSetting (filled .now) (Value.instant atlas.host)
  let width := readSetting (filled .width) Value.width
  match utc, zone, now, width with
  | _, _, .error .outsideCalendar, _ => .error .outsideCalendar
  | .ok utc?, .ok zone?, .ok now?, .ok width? =>
    .ok { utc := utc?.getD false, zone?, now?, width := width?.getD defaultWidth }
  | _, _, _, _ =>
    .error (.invalid (malformed
      [(.utc, utc.isOk), (.zone, zone.isOk), (.now, now.isOk), (.width, width.isOk)]))

end Timespan
