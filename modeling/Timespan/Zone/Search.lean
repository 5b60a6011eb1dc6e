/-
  The search by which the host clock brings a wall time back to an offset: it tries offsets until
  the clocks show the wall time. A wall time that the clocks skip gets the offset from after the
  change, where `Zone.offsetOfWall` keeps the one from before.

  Releases of the host's library do not agree on a skipped wall time. This is the search of 3.11;
  that of 3.12.3 keeps the offset from before the change, as zones known by name do. The library
  also shows the instant it has found on the clock once more. That step is left out: it could leave
  the calendar only where a host changes its clocks several times in the last days of 9999.
-/
import Timespan.Calendar.Fields
import Timespan.Zone.Basic

namespace Timespan.Zone

/-- What the clocks show, if that lies in the calendar. -/
def shown? (z : Zone) (u : Int) : Option Int :=
  if Calendar.inCalendar (z.localTime u * 1000) then some (z.localTime u) else none

/-- Where the clocks show `w` at `u`, the instant of an earlier pass, if they showed `w` under the
    offset of the day before too; else `u`. -/
def earlierPass? (z : Zone) (w u : Int) : Option Int := do
  let dayBefore := u - 86400
  let v := w - ((← z.shown? dayBefore) - dayBefore)
  return if (← z.shown? v) = w then v else u

/-- Where the clocks do not show `w` at `u`, the instant under the offset that they have there; if
    they do not show `w` at that either, they skip it, and the later of the two counts. -/
def otherOffset? (z : Zone) (w u : Int) : Option Int := do
  let v := w - ((← z.shown? u) - u)
  return if (← z.shown? v) = w then v else max u v

/-- The offset for a wall time, found by looking at the clocks at a handful of instants; `none` as
    soon as a clock shows a time outside the calendar. -/
def searchOffset? (z : Zone) (w : Int) : Option Int := do
  let u := w - ((← z.shown? w) - w)
  let v ← if (← z.shown? u) = w then z.earlierPass? w u else z.otherOffset? w u
  return z.offsetAt v

end Timespan.Zone
