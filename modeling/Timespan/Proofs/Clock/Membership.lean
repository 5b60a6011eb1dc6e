/-
  Which instants a range holds. Where the clocks show its first wall time once and the one after its
  last once, it holds just the instants at which they show a wall time from the one to the other,
  however often they are changed within (`mem_interval_zoned_iff`).
-/
import Timespan.Proofs.Clock.RoundTrip
import Mathlib.Logic.ExistsUnique

namespace Timespan

open Timespan.Calendar

/-! ## One end of a range -/

/-- A wall time, in milliseconds, that is shown once divides the instants. -/
theorem Zone.le_wallAt_iff_of_once {z : Zone} (hr : z.Regular) {s w : Int} (hs : z.wallAt s = w)
    (honce : ∀ r, z.wallAt r = w → r = s) (t : Int) : w ≤ z.wallAt t ↔ s ≤ t := by
  have honce' : ∀ r, z.localTime r = z.localTime (s / 1000) → r = s / 1000 := by
    intro r hloc
    have := honce (1000 * r + s % 1000) ?_
    · omega
    · rw [← hs, wallAt_eq_iff, show (1000 * r + s % 1000) / 1000 = r by omega]
      exact ⟨hloc, by omega⟩
  have hle := le_localTime_iff_of_once hr rfl honce' (t / 1000)
  have heq : z.localTime (t / 1000) = z.localTime (s / 1000) ↔ t / 1000 = s / 1000 :=
    ⟨honce' _, fun h => by rw [h]⟩
  rw [← hs, wallAt_eq, wallAt_eq]
  omega

namespace WallClock

variable {z : Zone} {v : Fields} {g : Grain} {n : Int}

/-- Adding to fields in range leaves no field below its first value. -/
theorem far_le_rolled_add (hv : v.Canonical) (hn : 0 ≤ n) (hyear : 9599 < (v.add g n).year) :
    monthStart 9600 1 * dayMillis ≤ (v.add g n).rolled := by
  have hmonth : 1 ≤ v.month := hv.valid.date.month.1
  have hday : 1 ≤ v.day := hv.valid.date.day.1
  obtain ⟨-, _, _, _, _⟩ := hv.valid
  apply Fields.le_rolled_of_year hyear
  · cases g <;> simp only [Fields.add] <;> omega
  · cases g <;>
      simp only [Fields.add, Fields.millisInMonth, dayMillis, hourMillis, minuteMillis,
        secondMillis] <;> omega

/-- A wall time that is shown once is brought back to the instant that shows it. -/
theorem wallAt_of_instantOf_zoned (hr : z.Regular) (hc : z.Cyclic) {s : Int}
    (h : (zoned z).instantOf v = .ok s)
    (hfar : 9599 < v.year → monthStart 9600 1 * dayMillis ≤ v.rolled)
    (hshown : ∃ r, z.wallAt r = v.rolled) : z.wallAt s = v.rolled := by
  obtain ⟨r, hr'⟩ := hshown
  have hsub := instantOf_eq_sub rfl hr hc h hfar
  have hwall := z.wallAt_eq r
  have hloc : z.localTime (r / 1000) = v.rolled / 1000 := by omega
  have hback := (Zone.offsetOfWall_first hr hloc).1
  rw [offset] at hsub
  rw [z.wallAt_eq s, show s / 1000 = v.rolled / 1000 - z.offsetOfWall (v.rolled / 1000) by omega,
    hback]
  omega

/-- A range in a zone known by name, both of whose ends are shown once, holds the instants at which
    the clocks show a wall time from its first one up to the one after its last. It is as wide as in
    UTC, less what the offset has grown from its start to its stop. -/
theorem mem_interval_zoned_iff (hr : z.Regular) (hc : z.Cyclic) (hv : v.Canonical) (hn : 1 ≤ n)
    {i : Interval} (hi : (zoned z).interval v g n = .ok i)
    (hstart : ∃! s, z.wallAt s = v.rolled) (hstop : ∃! s, z.wallAt s = (v.add g n).rolled) :
    (∀ t, i.start ≤ t ∧ t < i.stop ↔ v.rolled ≤ z.wallAt t ∧ z.wallAt t < (v.add g n).rolled) ∧
      ∃ j, utc.interval v g n = .ok j ∧
        i.stop - i.start =
          j.stop - j.start - 1000 * (z.offsetAt (i.stop / 1000) - z.offsetAt (i.start / 1000)) := by
  obtain ⟨h1, h2⟩ := interval_eq_ok hi
  have hfar : 9599 < v.year → monthStart 9600 1 * dayMillis ≤ v.rolled := fun hy =>
    Fields.le_rolled_of_year hy hv.valid.date.month.1 hv.valid.millisInMonth_nonneg
  have hshows := wallAt_of_instantOf_zoned hr hc h1 hfar hstart.exists
  have hshows' := wallAt_of_instantOf_zoned hr hc h2 (far_le_rolled_add hv (by omega)) hstop.exists
  constructor
  · intro t
    have hle := Zone.le_wallAt_iff_of_once hr hshows (fun r h => hstart.unique h hshows) t
    have hle' := Zone.le_wallAt_iff_of_once hr hshows' (fun r h => hstop.unique h hshows') t
    omega
  · obtain ⟨hcovers, -⟩ := (instantOf_eq_ok_iff rfl).mp h1
    obtain ⟨hcovers', -⟩ := (instantOf_eq_ok_iff rfl).mp h2
    refine ⟨⟨v.rolled, (v.add g n).rolled⟩, ?_, ?_⟩
    · rw [interval, instantOf_utc, instantOf_utc, if_pos hcovers, if_pos hcovers']
      rfl
    · simp only [Zone.wallAt] at hshows hshows'
      show i.stop - i.start = (v.add g n).rolled - v.rolled -
        1000 * (z.offsetAt (i.stop / 1000) - z.offsetAt (i.start / 1000))
      omega

/-- The day on which eastern summer time ends has 25 hours, and these are all of them. -/
theorem mem_interval_zoned_iff_summer_ends :
    (zoned Zone.eastern).interval ⟨2021, 11, 7, 0, 0, 0, 0⟩ .day 1 =
        .ok ⟨1636257600000, 1636347600000⟩ ∧
      ∀ t, 1636257600000 ≤ t ∧ t < 1636347600000 ↔
        1636243200000 ≤ Zone.eastern.wallAt t ∧ Zone.eastern.wallAt t < 1636329600000 := by
  have hday : (zoned Zone.eastern).interval ⟨2021, 11, 7, 0, 0, 0, 0⟩ .day 1 =
      .ok ⟨1636257600000, 1636347600000⟩ := by decide +kernel
  have hstands {t w : Int} (h : Zone.eastern.wallAt t = w) : t = w + 14400000 ∨ t = w + 18000000 := by
    have := Zone.eastern_temperate.eq_of_wallAt (Zone.eastern_eq ▸ h)
    simp only [Zone.easternSummer] at this
    omega
  -- midnight is in summer, and the next one in winter
  have hstart : ∃! s, Zone.eastern.wallAt s = 1636243200000 := by
    refine ⟨1636257600000, by decide +kernel, fun s hs => ?_⟩
    rcases hstands hs with rfl | rfl
    · rfl
    · exact absurd hs (by decide +kernel)
  have hstop : ∃! s, Zone.eastern.wallAt s = 1636329600000 := by
    refine ⟨1636347600000, by decide +kernel, fun s hs => ?_⟩
    rcases hstands hs with rfl | rfl
    · exact absurd hs (by decide +kernel)
    · rfl
  exact ⟨hday, (mem_interval_zoned_iff Zone.eastern_regular Zone.eastern_cyclic
    (Fields.canonical_iff.mpr (by decide)) (by decide) hday hstart hstop).1⟩

end WallClock

end Timespan
