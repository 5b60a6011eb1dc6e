/-
  Zones of local time. A zone is the offset of its clocks from UTC at every instant; a wall time is
  brought back to an offset through that function alone. All times here are whole seconds.
-/

namespace Timespan

/-- Seconds that the clocks of a zone are ahead of UTC, at each second since 1970. -/
structure Zone where
  offsetAt : Int → Int

namespace Zone

/-- The zone whose clocks are always `offset` ahead. -/
def fixed (offset : Int) : Zone := ⟨fun _ => offset⟩

def utc : Zone := fixed 0

/-- What the clocks show at the second `u`. -/
def localTime (z : Zone) (u : Int) : Int := u + z.offsetAt u

/-- The offset that belongs to a wall time: of the offsets in force a day before and a day after,
    the first under which the clocks do show the wall time. So of two passes the earlier counts.
    A wall time that the clocks skip keeps the offset from before the change. -/
def offsetOfWall (z : Zone) (w : Int) : Int :=
  let before := z.offsetAt (w - 86400)
  let after := z.offsetAt (w + 86400)
  if z.offsetAt (w - before) = before then before
  else if z.offsetAt (w - after) = after then after
  else before

end Zone

end Timespan
