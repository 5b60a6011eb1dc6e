/-
  Resolved terms.
-/
import Timespan.Interval

namespace Timespan

inductive Term where
  | interval (i : Interval)
  | duration (millis : Int)
  /-- The present instant. -/
  | now (instant : Int)
deriving DecidableEq, Repr

/-- The range that a term marks on the time line by itself; durations mark none. -/
def Term.point? : Term → Option Interval
  | .interval i => some i
  | .duration _ => none
  | .now t => some ⟨t, t⟩

end Timespan
