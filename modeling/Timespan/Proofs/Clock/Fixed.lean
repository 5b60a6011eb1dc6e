/-
  Clocks that are never changed. Such a clock shows what the clock of UTC shows a fixed time later,
  and brings fields back to as much earlier an instant (`embeds_of_fixed`). That of a zone known by
  name does so whatever the fields, and also fails when the other does (`agrees_of_fixed`); the
  host's can stop at the ends of the calendar, which the search for an offset must not leave.
-/
import Timespan.Proofs.Clock.RoundTrip
import Timespan.Proofs.Span

namespace Timespan.WallClock

open Timespan.Calendar

/-- Whenever the clock `c` can be read at `t`, the clock `d` shows the same `δ` later, and fields
    that `c` brings back are brought back `δ` later by `d`. -/
structure Embeds (c d : WallClock) (t δ : Int) : Prop where
  fieldsAt : ∀ v, c.fieldsAt t = .ok v → d.fieldsAt (t + δ) = .ok v
  instantOf : ∀ v s, c.instantOf v = .ok s → d.instantOf v = .ok (s + δ)

/-- The clock `d` shows what `c` shows `δ` earlier, if anything, and brings the same fields back,
    `δ` later. -/
structure Agrees (c d : WallClock) (t δ : Int) : Prop where
  fieldsAt : d.fieldsAt (t + δ) = c.fieldsAt t
  instantOf : ∀ v, d.instantOf v = (c.instantOf v).map (· + δ)

variable {c d : WallClock} {z : Zone} {o t δ : Int} {v : Fields} {g : Grain} {n : Int}

theorem Embeds.interval (h : c.Embeds d t δ) {i : Interval} (hi : c.interval v g n = .ok i) :
    d.interval v g n = .ok (i.shift δ) := by
  obtain ⟨h1, h2⟩ := interval_eq_ok hi
  rw [WallClock.interval, h.instantOf _ _ h1, h.instantOf _ _ h2]
  rfl

theorem Agrees.interval (h : c.Agrees d t δ) (v : Fields) (g : Grain) (n : Int) :
    d.interval v g n = (c.interval v g n).map (Interval.shift δ) := by
  rw [WallClock.interval, WallClock.interval, h.instantOf, h.instantOf]
  cases c.instantOf v with
  | error _ => rfl
  | ok _ => cases c.instantOf (v.add g n) <;> rfl

/-- Fields that no clock brings back are refused by all in the same words. -/
theorem instantOf_of_not_covers (hz : c.zone = .ok z) (h : ¬ Covers v) :
    c.instantOf v = .error (.fieldsOutOfRange (cycleBack v)) := by
  simp [instantOf, hz, wall?_cycleBack, if_neg h]

section

variable (hfixed : ∀ u, z.offsetAt u = o)
include hfixed

theorem wallAt_of_fixed (t : Int) : z.wallAt t = t + 1000 * o := by rw [Zone.wallAt, hfixed]

theorem embeds_of_fixed (hz : c.zone = .ok z) (t : Int) : c.Embeds utc t (1000 * o) where
  fieldsAt v h := by
    obtain ⟨-, hin, hv⟩ := (fieldsAt_eq_ok_iff hz).mp h
    rw [wallAt_of_fixed hfixed] at hin hv
    exact fieldsAt_utc_eq_ok_iff.mpr ⟨hin, hv.symm⟩
  instantOf v s h := by
    obtain ⟨hcovers, -⟩ := (instantOf_eq_ok_iff hz).mp h
    -- the host's search may fail, but the offset that it finds is one that the zone has
    obtain ⟨p, hp, hs⟩ := instantOf_eq_ok h
    obtain ⟨u, rfl⟩ := offset?_eq_offsetAt hz hp
    rw [hfixed] at hs
    exact instantOf_utc_eq_ok_iff.mpr ⟨hcovers, by omega⟩

theorem agrees_of_fixed (hin : inCalendar t = true) (hin' : inCalendar (t + 1000 * o) = true) :
    (zoned z).Agrees utc t (1000 * o) where
  fieldsAt := by
    have hwall := wallAt_of_fixed hfixed t
    rw [fieldsAt_utc, if_pos hin']
    refine ((fieldsAt_eq_ok_iff rfl).mpr ⟨hin, ?_, ?_⟩).symm
    · rw [hwall, hin']
    · rw [hwall]
  instantOf v := by
    by_cases hcovers : Covers v
    · obtain ⟨s, hs⟩ := exists_instantOf_zoned hcovers
      rw [hs]
      exact (embeds_of_fixed hfixed rfl t).instantOf v s hs
    · rw [instantOf_of_not_covers rfl hcovers, instantOf_of_not_covers rfl hcovers]
      rfl

end

end Timespan.WallClock
