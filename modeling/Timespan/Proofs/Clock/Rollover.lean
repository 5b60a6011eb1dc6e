/-
  Fields that denote one wall time. What they name depends on them through that wall time, with one
  exception: the way by the date 400 years before is taken where the year as written, and not the
  one that the fields carry into, lies above 9599. So of two such fields one can get the offset of
  their date and the other the offset of 400 years before, and they name one instant just when
  these two are the same (`instantOf_rollover`). A year that is written above 9599 and carried back
  into the past shows the difference (`newYork_carried_back`).
-/
import Timespan.Proofs.Clock.RoundTrip
import Timespan.Zone.Atlas

namespace Timespan

open Timespan.Calendar

/-! ## Zones whose whole history repeats -/

namespace Zone

/-- The zone whose clocks are changed `k` seconds later. -/
def later (z : Zone) (k : Int) : Zone := ⟨fun u => z.offsetAt (u - k)⟩

variable (z : Zone) (k w : Int)

@[simp] theorem offsetOfWall_later : (z.later k).offsetOfWall w = z.offsetOfWall (w - k) := by
  have hsub : ∀ x, w - x - k = w - k - x := fun x => by omega
  have hadd : w + 86400 - k = w - k + 86400 := by omega
  simp only [offsetOfWall, later, hsub, hadd]

@[simp] theorem searched_later : (z.later k).searched w = z.searched (w - k) := by
  have hsub : ∀ x, w - x - k = w - k - x := fun x => by omega
  have hsub' : ∀ x y, w - x - y - k = w - k - x - y := fun x y => by omega
  have hmax : ∀ x y, max (w - x) (w - y) - k = max (w - k - x) (w - k - y) := fun x y => by omega
  simp only [searched, later, hsub, hsub', hmax]

/-- The offsets repeat every 400 years, at all times. -/
def Periodic (z : Zone) : Prop := ∀ u, z.offsetAt (u + cycleSeconds) = z.offsetAt u

variable {z}

theorem Periodic.later_cycle (h : z.Periodic) : z.later cycleSeconds = z := by
  have hoff : (fun u => z.offsetAt (u - cycleSeconds)) = z.offsetAt := by
    funext u
    rw [← h (u - cycleSeconds), Int.sub_add_cancel]
  rw [later, hoff]

theorem utc_periodic : utc.Periodic := fun _ => rfl

end Zone

namespace WallClock

variable {c : WallClock} {z : Zone} {v v' : Fields} {t t' : Int}

/-- Fields name the instant of their wall time by the offset there, or by that of 400 years before
    if their year stands above 9599. -/
theorem eq_sub_offset (h : c.instantOf v = .ok t) :
    t = v.rolled - 1000 * (if 9599 < v.year then c.offset (v.rolled / 1000 - Zone.cycleSeconds)
      else c.offset (v.rolled / 1000)) := by
  obtain ⟨o, ho, ht⟩ := instantOf_eq_ok h
  have hseconds : (v.rolled - cycleMillis) / 1000 = v.rolled / 1000 - Zone.cycleSeconds := by
    simp only [cycleMillis, dayMillis, Zone.cycleSeconds]
    omega
  rw [ht, eq_offset_of_offset? ho, rolled_cycleBack]
  split
  · rw [hseconds]
  · rfl

theorem offset_sub_cycle_of_periodic (hz : c.zone = .ok z) (h : z.Periodic) (w : Int) :
    c.offset (w - Zone.cycleSeconds) = c.offset w := by
  cases c with
  | zoned y =>
    cases hz
    simp only [offset]
    rw [← Zone.offsetOfWall_later, h.later_cycle]
  | host y =>
    cases hz
    simp only [offset]
    rw [← Zone.searched_later, h.later_cycle]
  | unknown name => cases hz

/-- Two fields that denote one wall time name one instant if the year of both stands above 9599, or
    of neither, or if the offset at the wall time is that of 400 years before; and only then. So
    they always do on a clock whose offsets repeat throughout, as in UTC, and from the year 9600 on
    in every regular zone whose offsets repeat from the year 9000 on. -/
theorem instantOf_rollover (h : c.instantOf v = .ok t) (h' : c.instantOf v' = .ok t')
    (hrolled : v.rolled = v'.rolled) :
    (t = v.rolled - 1000 * (if 9599 < v.year then c.offset (v.rolled / 1000 - Zone.cycleSeconds)
      else c.offset (v.rolled / 1000))) ∧
    (t = t' ↔ (9599 < v.year ↔ 9599 < v'.year) ∨
      c.offset (v.rolled / 1000 - Zone.cycleSeconds) = c.offset (v.rolled / 1000)) ∧
    (∀ z, c.zone = .ok z → z.Periodic → t = t') ∧
    ∀ z, c.zone = .ok z → z.Regular → z.Cyclic →
      monthStart 9600 1 * dayMillis ≤ v.rolled → t = t' := by
  have ht := eq_sub_offset h
  have ht' := eq_sub_offset h'
  rw [← hrolled] at ht'
  have hiff : t = t' ↔ (9599 < v.year ↔ 9599 < v'.year) ∨
      c.offset (v.rolled / 1000 - Zone.cycleSeconds) = c.offset (v.rolled / 1000) := by
    split_ifs at ht ht' <;> omega
  refine ⟨ht, hiff, ?_, ?_⟩
  · intro z hz hperiodic
    exact hiff.mpr (Or.inr (offset_sub_cycle_of_periodic hz hperiodic _))
  · intro z hz hr hc hfar
    exact instantOf_eq_of_rolled_eq hz hr hc h h' hrolled fun _ => hfar

/-- The first of January 9600 in eastern time, written in that year or as the thirteenth month of
    the year before; and July 2021 in UTC, written as such or counted back from the year 9600. -/
theorem instantOf_rollover_new_year :
    (∃ t, (zoned Zone.eastern).instantOf ⟨9599, 13, 1, 0, 0, 0, 0⟩ = .ok t ∧
      (zoned Zone.eastern).instantOf ⟨9600, 1, 1, 0, 0, 0, 0⟩ = .ok t) ∧
    ∃ t, (zoned Zone.utc).instantOf ⟨2021, 7, 1, 0, 0, 0, 0⟩ = .ok t ∧
      (zoned Zone.utc).instantOf ⟨9600, -90941, 1, 0, 0, 0, 0⟩ = .ok t := by
  constructor
  · obtain ⟨t, h⟩ := exists_instantOf_zoned (z := Zone.eastern)
      (v := ⟨9599, 13, 1, 0, 0, 0, 0⟩) (by decide)
    obtain ⟨t', h'⟩ := exists_instantOf_zoned (z := Zone.eastern)
      (v := ⟨9600, 1, 1, 0, 0, 0, 0⟩) (by decide)
    obtain ⟨-, -, -, hfar⟩ := instantOf_rollover h h' (by decide)
    obtain rfl := hfar _ rfl Zone.eastern_regular Zone.eastern_cyclic (by decide)
    exact ⟨t, h, h'⟩
  · obtain ⟨t, h⟩ := exists_instantOf_zoned (z := Zone.utc)
      (v := ⟨2021, 7, 1, 0, 0, 0, 0⟩) (by decide)
    obtain ⟨t', h'⟩ := exists_instantOf_zoned (z := Zone.utc)
      (v := ⟨9600, -90941, 1, 0, 0, 0, 0⟩) (by decide)
    obtain ⟨-, -, hperiodic, -⟩ := instantOf_rollover h h' (by decide)
    obtain rfl := hperiodic _ rfl Zone.utc_periodic
    exact ⟨t, h, h'⟩

/-- July 2021 in New York, written as such or counted back from the year 9600. The second comes to
    the offset of July 1621. -/
theorem newYork_carried_back :
    ¬ ∀ (m : Mode) (v v' : Fields) (t t' : Int), v.rolled = v'.rolled →
      ((Atlas.ofHost "UTC0").clock m).instantOf v = .ok t →
      ((Atlas.ofHost "UTC0").clock m).instantOf v' = .ok t' → t = t' := by
  intro h
  have h1 := h ⟨false, some "America/New_York"⟩ ⟨2021, 7, 1, 0, 0, 0, 0⟩
    ⟨9600, -90941, 1, 0, 0, 0, 0⟩ 1625112000000 1625115362000 (by decide) (by decide +kernel)
    (by decide +kernel)
  exact absurd h1 (by decide)

end WallClock

end Timespan
