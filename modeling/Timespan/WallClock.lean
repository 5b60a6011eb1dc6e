/-
  Wall clocks: what calendar fields an instant shows, and which instant calendar fields name. A
  clock is that of a zone known by name, UTC among them, or that of the host.
-/
import Timespan.Interval
import Timespan.Rejection
import Timespan.Zone.Search

namespace Timespan

open Timespan.Calendar

/-- Milliseconds in 400 Gregorian years, after which dates, weekdays and yearly rules repeat. -/
def cycleMillis : Int := 146097 * dayMillis

/-- What the clocks of a zone show at the millisecond `t`. -/
def Zone.wallAt (z : Zone) (t : Int) : Int := t + 1000 * z.offsetAt (t / 1000)

/-- The instant of a wall time by `Zone.offsetOfWall`. -/
def Zone.instantOfWall (z : Zone) (w : Int) : Int := w - 1000 * z.offsetOfWall (w / 1000)

/-- Why the host clock names no instant for a wall time. -/
inductive SearchFault where
  /-- On the way a clock showed a year outside the calendar. -/
  | shownOutside
  /-- The instant itself lies outside the calendar. -/
  | foundOutside
deriving DecidableEq, Repr

/-- The instant of a wall time by `Zone.searchOffset?`. -/
def Zone.searchInstant (z : Zone) (w : Int) : Except SearchFault Int :=
  match z.searchOffset? (w / 1000) with
  | none => .error .shownOutside
  | some offset =>
    let t := w - 1000 * offset
    if inCalendar t then .ok t else .error .foundOutside

inductive WallClock where
  | zoned (zone : Zone)
  | host (zone : Zone)
  /-- The clock of a zone that nobody knows: it can be named but not read. -/
  | unknown (name : String)

namespace WallClock

def zone : WallClock → Except Fault Zone
  | .zoned z | .host z => .ok z
  | .unknown name => .error (.rejected (.unknownZone name))

/-- The fields that the clock shows at an instant. Both the instant and the wall time have to lie
    in the calendar. -/
def fieldsAt (c : WallClock) (t : Int) : Except Fault Fields := do
  let w := (← c.zone).wallAt t
  if inCalendar t && inCalendar w then .ok (Fields.ofWall w) else .error (.instantOutOfRange t)

/-- The instant of a wall time in the calendar. -/
def instantOfWall? : WallClock → Int → Option Int
  | .zoned z, w => some (z.instantOfWall w)
  | .host z, w => (z.searchInstant w).toOption
  | .unknown _, _ => none

/-- The fields that stand in for years above 9599: the same date one cycle of 400 years before, so
    that the stop of a range at the end of the calendar still has a date. -/
def cycleBack (v : Fields) : Fields := if v.year > 9599 then { v with year := v.year - 400 } else v

/-- The instant that fields name, after rolling over. -/
def instantOf (c : WallClock) (v : Fields) : Except Fault Int := do
  let _ ← c.zone
  match (cycleBack v).wall?.bind c.instantOfWall? with
  | some t => .ok (if v.year > 9599 then t + cycleMillis else t)
  | none => .error (.fieldsOutOfRange (cycleBack v))

/-- The range from the instant of the fields to that of the fields with `step` added to one. -/
def interval (c : WallClock) (v : Fields) (g : Grain) (step : Int) : Except Fault Interval := do
  let start ← c.instantOf v
  let stop ← c.instantOf (v.add g step)
  .ok ⟨start, stop⟩

end WallClock

/-- Which wall clock to read: that of a named zone, else UTC or the host's. An empty name names no
    zone. -/
structure Mode where
  utc : Bool := false
  zone? : Option String := none
deriving DecidableEq, Repr

/-- The zones of a place: that of its own clock and those it knows by name. To look a name up is to
    find its zone or none. A lookup that breaks down over the name itself, because it is nested too
    deep or leads into the code around the zone files, is left out. -/
structure Atlas where
  host : Zone
  named? : String → Option Zone

def Atlas.clock (a : Atlas) (m : Mode) : WallClock :=
  match m.zone?.filter (· ≠ "") with
  | some name =>
    match a.named? name with
    | some z => .zoned z
    | none => .unknown name
  | none => if m.utc then .zoned Zone.utc else .host a.host

end Timespan
