/-
  The atlas of the known zones around a host's clock.
-/
import Timespan.WallClock
import Timespan.Zone.Posix
import Timespan.Zone.Table

namespace Timespan

/-- The zones known by name, at a host whose clock follows a POSIX rule. -/
def Atlas.ofHost (rule : String) : Atlas := ⟨Zone.Posix.zone rule, Zone.named?⟩

end Timespan
