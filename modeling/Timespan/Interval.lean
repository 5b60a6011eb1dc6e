/-
  Ranges of instants with both their ends. All instants are milliseconds since 1970-01-01T00:00Z,
  and all ranges are half open: they hold their start and not their stop.
-/

namespace Timespan

structure Interval where
  start : Int
  stop : Int
deriving DecidableEq, Repr

end Timespan
