/-
  Zones whose rules repeat. Years above 9599 are brought back by way of the date 400 years before.
  In a zone whose offsets repeat every 400 years from the year 9000 on, nothing shows of that: every
  wall time is brought back by its own offset (`instantOf_eq_direct`), and fields that denote one
  wall time name one instant, whichever of them take the way through the earlier date
  (`instantOf_eq_of_rolled_eq`).
-/
import Timespan.Proofs.Calendar.Unit
import Timespan.Proofs.Clock.Gap

namespace Timespan

open Timespan.Calendar

namespace Calendar.Fields

theorem Valid.millisInMonth_nonneg {v : Fields} (h : v.Valid) :
    0 ≤ v.millisInMonth := by
  have hday : 1 ≤ v.day := h.date.day.1
  obtain ⟨-, _, _, _, _⟩ := h
  simp only [millisInMonth, dayMillis, hourMillis, minuteMillis, secondMillis]
  omega

/-- Fields of a year above 9599 denote no wall time before 9600, if none of them is below its first
    value. -/
theorem le_rolled_of_year {v : Fields} (hyear : 9599 < v.year)
    (hmonth : 1 ≤ v.month) (hms : 0 ≤ v.millisInMonth) :
    monthStart 9600 1 * dayMillis ≤ v.rolled := by
  have hmono := monthsStart_mono (show 9600 * 12 ≤ v.months by rw [months]; omega)
  have hstart : monthsStart (9600 * 12) = monthStart 9600 1 := by decide
  rw [rolled_eq_months, ← hstart]
  simp only [dayMillis]
  omega

theorem Canonical.le_rolled_of_year {v : Fields} (hv : v.Canonical) (hyear : 9599 < v.year) :
    monthStart 9600 1 * dayMillis ≤ v.rolled :=
  Fields.le_rolled_of_year hyear hv.valid.date.month.1 hv.valid.millisInMonth_nonneg

end Calendar.Fields

namespace Zone

/-- Seconds in 400 years. -/
def cycleSeconds : Int := 146097 * 86400

/-- From the year 9000 on the offsets repeat every 400 years. -/
def Cyclic (z : Zone) : Prop :=
  ∀ u, monthStart 9000 1 * 86400 ≤ u → z.offsetAt (u + cycleSeconds) = z.offsetAt u

variable {z : Zone}

/-- The three days before the year 9600 and all later times have the offsets of 400 years before. -/
theorem Cyclic.offsetAt_sub_cycle (hc : z.Cyclic) {x y : Int} (hxy : x = y - cycleSeconds)
    (h : monthStart 9600 1 * 86400 ≤ y + 259200) : z.offsetAt x = z.offsetAt y := by
  have hyears : monthStart 9000 1 * 86400 + cycleSeconds + 259200 ≤ monthStart 9600 1 * 86400 := by
    decide
  rw [← hc x (by omega), show x + cycleSeconds = y by omega]

section

variable (hb : z.Bounded) (hc : z.Cyclic) {w : Int} (h : monthStart 9600 1 * 86400 ≤ w)
include hb hc h

theorem offsetOfWall_sub_cycle : z.offsetOfWall (w - cycleSeconds) = z.offsetOfWall w := by
  have hback := fun x y hxy hy => hc.offsetAt_sub_cycle (x := x) (y := y) hxy hy
  have hbefore := hb (w - 86400)
  have hafter := hb (w + 86400)
  simp only [offsetOfWall]
  rw [hback (w - cycleSeconds - 86400) (w - 86400) (by omega) (by omega),
    hback (w - cycleSeconds + 86400) (w + 86400) (by omega) (by omega),
    hback (w - cycleSeconds - z.offsetAt (w - 86400)) (w - z.offsetAt (w - 86400)) (by omega)
      (by omega),
    hback (w - cycleSeconds - z.offsetAt (w + 86400)) (w - z.offsetAt (w + 86400)) (by omega)
      (by omega)]

theorem searched_sub_cycle : z.searched (w - cycleSeconds) = z.searched w := by
  have hback := fun x y hxy hy => hc.offsetAt_sub_cycle (x := x) (y := y) hxy hy
  have hp := hb w
  have hd := hb (w - z.offsetAt w - 86400)
  have he := hb (w - z.offsetAt w)
  simp only [searched]
  rw [hback (w - cycleSeconds) w rfl (by omega),
    hback (w - cycleSeconds - z.offsetAt w) (w - z.offsetAt w) (by omega) (by omega),
    hback (w - cycleSeconds - z.offsetAt w - 86400) (w - z.offsetAt w - 86400) (by omega)
      (by omega),
    hback (w - cycleSeconds - z.offsetAt (w - z.offsetAt w - 86400))
      (w - z.offsetAt (w - z.offsetAt w - 86400)) (by omega) (by omega),
    hback (w - cycleSeconds - z.offsetAt (w - z.offsetAt w)) (w - z.offsetAt (w - z.offsetAt w))
      (by omega) (by omega),
    hback (max (w - cycleSeconds - z.offsetAt w)
        (w - cycleSeconds - z.offsetAt (w - z.offsetAt w)))
      (max (w - z.offsetAt w) (w - z.offsetAt (w - z.offsetAt w))) (by omega) (by omega)]

end

end Zone

namespace WallClock

/-- The offset by which the clock brings back a wall time, in seconds, if it can bring it back. -/
def offset : WallClock → Int → Int
  | .zoned z, w => z.offsetOfWall w
  | .host z, w => z.searched w
  | .unknown _, _ => 0

/-- The instant of a wall time by the offset that belongs to it, wherever the wall time lies. -/
def direct (c : WallClock) (w : Int) : Int := w - 1000 * c.offset (w / 1000)

variable {c : WallClock} {z : Zone}

theorem eq_offset_of_offset? {w o : Int} (h : c.offset? w = some o) : o = c.offset w := by
  cases c with
  | zoned y => exact (Option.some.inj h).symm
  | host y => exact Zone.eq_searched_of_searchOffset? h
  | unknown name => cases h

/-- A wall time that is brought back at all comes to that instant. -/
theorem eq_direct_of_instantOfWall? {w t : Int} (h : c.instantOfWall? w = some t) :
    t = c.direct w := by
  obtain ⟨o, ho, ht⟩ := instantOfWall?_eq_some h
  rw [ht, direct, eq_offset_of_offset? ho]

section

variable (hz : c.zone = .ok z) (hb : z.Bounded) (hc : z.Cyclic)
include hz hb hc

theorem offset_sub_cycle {w : Int} (h : monthStart 9600 1 * 86400 ≤ w) :
    c.offset (w - Zone.cycleSeconds) = c.offset w := by
  cases c with
  | zoned y =>
    cases hz
    exact Zone.offsetOfWall_sub_cycle hb hc h
  | host y =>
    cases hz
    exact Zone.searched_sub_cycle hb hc h
  | unknown name => cases hz

/-- From the year 9600 on the date 400 years before leads to the same instant. -/
theorem direct_sub_cycle {w : Int} (h : monthStart 9600 1 * dayMillis ≤ w) :
    c.direct (w - cycleMillis) = c.direct w - cycleMillis := by
  have hseconds : (w - cycleMillis) / 1000 = w / 1000 - Zone.cycleSeconds := by
    simp only [cycleMillis, Zone.cycleSeconds, dayMillis]
    omega
  unfold direct
  rw [hseconds, offset_sub_cycle hz hb hc]
  · omega
  · simp only [dayMillis] at h
    omega

/-- Fields name the instant of their wall time by the offset at that wall time, also by way of the
    date 400 years before. -/
theorem instantOf_eq_direct {v : Fields} {t : Int} (h : c.instantOf v = .ok t)
    (hfar : 9599 < v.year → monthStart 9600 1 * dayMillis ≤ v.rolled) : t = c.direct v.rolled := by
  obtain ⟨o, ho, ht⟩ := instantOf_eq_ok h
  rw [eq_offset_of_offset? ho, rolled_cycleBack] at ht
  split at ht
  · rename_i hyear
    have hsub := direct_sub_cycle hz hb hc (hfar hyear)
    unfold direct at hsub ⊢
    omega
  · exact ht

end

section

variable (hz : c.zone = .ok z) (hr : z.Regular) (hc : z.Cyclic)
include hz hr hc

theorem instantOf_eq_sub {v : Fields} {t : Int} (h : c.instantOf v = .ok t)
    (hfar : 9599 < v.year → monthStart 9600 1 * dayMillis ≤ v.rolled) :
    t = v.rolled - 1000 * c.offset (v.rolled / 1000) :=
  instantOf_eq_direct hz hr.bounded hc h hfar

/-- Fields that denote one wall time name one instant. -/
theorem instantOf_eq_of_rolled_eq {v v' : Fields} {t t' : Int} (h : c.instantOf v = .ok t)
    (h' : c.instantOf v' = .ok t') (hrolled : v.rolled = v'.rolled)
    (hfar : 9599 < v.year ∨ 9599 < v'.year → monthStart 9600 1 * dayMillis ≤ v.rolled) :
    t = t' := by
  rw [instantOf_eq_sub hz hr hc h fun hy => hfar (Or.inl hy),
    instantOf_eq_sub hz hr hc h' fun hy => hrolled ▸ hfar (Or.inr hy), hrolled]

end

end WallClock

end Timespan
