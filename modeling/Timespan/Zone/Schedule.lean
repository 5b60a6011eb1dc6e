/-
  Recorded histories of zones: an offset before the first change, the recorded changes, and a
  yearly rule from the last change on.
-/
import Timespan.Zone.Rule

namespace Timespan.Zone

/-- From the second `moment` on, the clocks are `offset` ahead. -/
structure Change where
  moment : Int
  offset : Int
deriving DecidableEq, Repr

structure Schedule where
  initial : Int
  changes : List Change
  rule : Rule
deriving DecidableEq, Repr

/-- The offset at `u`, where `current` is in force until the first of the changes. -/
def offsetThrough (rule : Rule) (u : Int) : Int → List Change → Int
  | _, [] => rule.offsetAt u
  | current, c :: cs => if u < c.moment then current else offsetThrough rule u c.offset cs

def Schedule.offsetAt (s : Schedule) (u : Int) : Int := offsetThrough s.rule u s.initial s.changes

def ofSchedule (s : Schedule) : Zone := ⟨s.offsetAt⟩

end Timespan.Zone
