/-
  Timestamps: a wall time to the microsecond, with the offset of its clock from UTC or without.
-/
import Timespan.WallClock

namespace Timespan

open Timespan.Calendar

/-- Wall time and offset in microseconds. -/
structure Timestamp where
  wall : Int
  offset? : Option Int
deriving DecidableEq, Repr

/-- The millisecond in which a timestamp lies. One without an offset is a reading of the host's
    clock. -/
def Timestamp.instant (host : Zone) (s : Timestamp) : Except SearchFault Int :=
  match s.offset? with
  | some offset => .ok ((s.wall - offset) / 1000)
  | none => host.searchInstant (s.wall / 1000)

end Timespan
