/-
  When the host's search succeeds: when the clock readings that it takes all lie in the calendar
  (`exists_searchOffset?_iff`). They lie within three days of the wall time that is searched for. So
  the search can only fail near the ends of the calendar, and near its first day, if the clocks are
  not changed there, it fails just for the wall times of that day
  (`exists_searchOffset?_iff_of_quiet`): a day before them there is no wall time to read.
-/
import Timespan.Proofs.Zone.Change
import Mathlib.Tactic.ByContra

namespace Timespan.Zone

open Timespan.Calendar

/-- The first second of the calendar, as a wall time. -/
def firstSecond : Int := -62135596800

/-- The last second of the calendar, as a wall time. -/
def lastSecond : Int := 253402300799

theorem inCalendar_seconds_iff {x : Int} :
    inCalendar (x * 1000) = true ↔ firstSecond ≤ x ∧ x ≤ lastSecond := by
  simp only [inCalendar, Bool.and_eq_true, decide_eq_true_eq]
  simp only [firstWall, lastWall, firstSecond, lastSecond]
  omega

variable {z : Zone}

/-- The clocks show a time of the calendar at the second `u`. -/
def Readable (z : Zone) (u : Int) : Prop := firstSecond ≤ z.localTime u ∧ z.localTime u ≤ lastSecond

theorem shown?_eq_some_iff {u x : Int} : z.shown? u = some x ↔ z.Readable u ∧ x = z.localTime u := by
  rw [shown?, Readable, ← inCalendar_seconds_iff]
  split
  · rename_i hin
    rw [Option.some.injEq, eq_comm]
    exact (and_iff_right hin).symm
  · rename_i hout
    simp only [hout, false_and, reduceCtorEq]

theorem exists_earlierPass?_iff {w u : Int} :
    (∃ v, z.earlierPass? w u = some v) ↔
      z.Readable (u - 86400) ∧ z.Readable (w - z.offsetAt (u - 86400)) := by
  simp only [earlierPass?, Option.bind_eq_bind, Option.bind_eq_some_iff, Option.pure_def,
    shown?_eq_some_iff]
  have hoff : z.localTime (u - 86400) - (u - 86400) = z.offsetAt (u - 86400) := by
    rw [localTime]
    omega
  constructor
  · rintro ⟨v, x, ⟨h1, rfl⟩, y, ⟨h2, -⟩, -⟩
    rw [hoff] at h2
    exact ⟨h1, h2⟩
  · rintro ⟨h1, h2⟩
    rw [← hoff] at h2
    exact ⟨_, _, ⟨h1, rfl⟩, _, ⟨h2, rfl⟩, rfl⟩

theorem exists_otherOffset?_iff {w u : Int} :
    (∃ v, z.otherOffset? w u = some v) ↔
      z.Readable u ∧ z.Readable (w - z.offsetAt u) := by
  simp only [otherOffset?, Option.bind_eq_bind, Option.bind_eq_some_iff, Option.pure_def,
    shown?_eq_some_iff]
  have hoff : z.localTime u - u = z.offsetAt u := by
    rw [localTime]
    omega
  constructor
  · rintro ⟨v, x, ⟨h1, rfl⟩, y, ⟨h2, -⟩, -⟩
    rw [hoff] at h2
    exact ⟨h1, h2⟩
  · rintro ⟨h1, h2⟩
    rw [← hoff] at h2
    exact ⟨_, _, ⟨h1, rfl⟩, _, ⟨h2, rfl⟩, rfl⟩

/-- The search succeeds when all its readings lie in the calendar. -/
theorem exists_searchOffset?_iff {w : Int} :
    (∃ o, z.searchOffset? w = some o) ↔
      z.Readable w ∧ z.Readable (w - z.offsetAt w) ∧
        (z.localTime (w - z.offsetAt w) = w → z.Readable (w - z.offsetAt w - 86400) ∧
          z.Readable (w - z.offsetAt (w - z.offsetAt w - 86400))) ∧
        (z.localTime (w - z.offsetAt w) ≠ w →
          z.Readable (w - z.offsetAt (w - z.offsetAt w))) := by
  have hoff : z.localTime w - w = z.offsetAt w := by
    rw [localTime]
    omega
  simp only [searchOffset?, Option.bind_eq_bind, Option.bind_eq_some_iff, Option.pure_def,
    shown?_eq_some_iff]
  constructor
  · rintro ⟨o, x, ⟨h1, rfl⟩, y, ⟨h2, rfl⟩, h⟩
    rw [hoff] at h2 h
    refine ⟨h1, h2, fun heq => ?_, fun hne => ?_⟩
    · rw [if_pos heq] at h
      obtain ⟨v, hv, -⟩ := Option.bind_eq_some_iff.mp h
      exact exists_earlierPass?_iff.mp ⟨v, hv⟩
    · rw [if_neg hne] at h
      obtain ⟨v, hv, -⟩ := Option.bind_eq_some_iff.mp h
      exact (exists_otherOffset?_iff.mp ⟨v, hv⟩).2
  · rintro ⟨h1, h2, heq, hne⟩
    by_cases hp : z.localTime (w - z.offsetAt w) = w
    · obtain ⟨v, hv⟩ := exists_earlierPass?_iff.mpr (heq hp)
      rw [← hoff] at h2 hp hv
      refine ⟨z.offsetAt v, _, ⟨h1, rfl⟩, _, ⟨h2, rfl⟩, ?_⟩
      rw [if_pos hp]
      exact Option.bind_eq_some_iff.mpr ⟨v, hv, rfl⟩
    · obtain ⟨v, hv⟩ := exists_otherOffset?_iff.mpr ⟨h2, hne hp⟩
      rw [← hoff] at h2 hp hv
      refine ⟨z.offsetAt v, _, ⟨h1, rfl⟩, _, ⟨h2, rfl⟩, ?_⟩
      rw [if_neg hp]
      exact Option.bind_eq_some_iff.mpr ⟨v, hv, rfl⟩

section

variable (hb : z.Bounded)
include hb

/-- Two days into the calendar only the reading of the day before can fail. -/
theorem exists_searchOffset?_of_dayBefore {w : Int} (hlo : firstSecond + 172800 ≤ w)
    (hhi : w + 259200 ≤ lastSecond) (hday : z.localTime (w - z.offsetAt w) = w →
      firstSecond ≤ z.localTime (w - z.offsetAt w - 86400)) : ∃ o, z.searchOffset? w = some o := by
  have hreadable : ∀ u, w - 86400 ≤ u → u ≤ w + 86400 → z.Readable u := by
    intro u h1 h2
    have := hb u
    rw [Readable, localTime]
    omega
  have hp := hb w
  have hd := hb (w - z.offsetAt w - 86400)
  have he := hb (w - z.offsetAt w)
  refine exists_searchOffset?_iff.mpr ⟨hreadable _ (by omega) (by omega),
    hreadable _ (by omega) (by omega), fun heq => ⟨⟨hday heq, ?_⟩, hreadable _ ?_ ?_⟩,
    fun _ => hreadable _ ?_ ?_⟩
  · rw [localTime]
    omega
  all_goals omega

/-- Three days into the calendar, and as long before its end, the search succeeds. -/
theorem exists_searchOffset? {w : Int} (hlo : firstSecond + 259200 ≤ w)
    (hhi : w + 259200 ≤ lastSecond) : ∃ o, z.searchOffset? w = some o := by
  refine exists_searchOffset?_of_dayBefore hb (by omega) hhi fun _ => ?_
  have hp := hb w
  have hd := hb (w - z.offsetAt w - 86400)
  rw [localTime]
  omega

/-- The clocks are not changed within three days of the start of the calendar. -/
def Quiet (z : Zone) : Prop :=
  ∀ u, z.Turns u → u ≤ firstSecond - 259200 ∨ firstSecond + 259200 < u

omit hb in
theorem Quiet.offsetAt_eq (hq : z.Quiet) {u : Int} (h1 : firstSecond - 259200 ≤ u)
    (h2 : u ≤ firstSecond + 259200) : z.offsetAt u = z.offsetAt firstSecond := by
  have hsame : ∀ x, firstSecond - 259200 ≤ x → x ≤ firstSecond + 259200 →
      z.offsetAt x = z.offsetAt (firstSecond - 259200) := by
    intro x hx1 hx2
    refine offsetAt_eq_of_not_turns (fun y hy1 hy2 hy => ?_) hx1
    have := hq y hy
    omega
  rw [hsame u h1 h2, hsame firstSecond (by omega) (by omega)]

/-- Where the clocks are not changed near the start of the calendar, the search fails on its first
    day and succeeds from the second day on. -/
theorem exists_searchOffset?_iff_of_quiet (hq : z.Quiet) {w : Int} (hlo : firstSecond ≤ w)
    (hhi : w + 259200 ≤ lastSecond) :
    (∃ o, z.searchOffset? w = some o) ↔ firstSecond + 86400 ≤ w := by
  have hp := hb w
  have ho := hb firstSecond
  have hsame := fun u h1 h2 => hq.offsetAt_eq (u := u) h1 h2
  constructor
  · intro h
    by_contra hday
    obtain ⟨-, -, heq, -⟩ := exists_searchOffset?_iff.mp h
    have hw := hsame w (by omega) (by omega)
    have hu := hsame (w - z.offsetAt w) (by omega) (by omega)
    have hbefore := hsame (w - z.offsetAt w - 86400) (by omega) (by omega)
    have := (heq (by rw [localTime]; omega)).1
    simp only [Readable, localTime] at this
    omega
  · intro hday
    rcases Int.lt_or_le w (firstSecond + 172800) with hnear | hfar
    · -- so near the start all readings are taken by the one offset
      have hw := hsame w (by omega) (by omega)
      have hu := hsame (w - z.offsetAt w) (by omega) (by omega)
      have hbefore := hsame (w - z.offsetAt w - 86400) (by omega) (by omega)
      have hshown : z.localTime (w - z.offsetAt w) = w := by
        rw [localTime]
        omega
      refine exists_searchOffset?_iff.mpr ⟨?_, ?_, fun _ => ⟨?_, ?_⟩, fun hne => absurd hshown hne⟩
      · rw [Readable, localTime]
        omega
      · rw [Readable, hshown]
        omega
      · rw [Readable, localTime]
        omega
      · rw [hbefore, ← hw, Readable, hshown]
        omega
    · refine exists_searchOffset?_of_dayBefore hb hfar hhi fun heq => ?_
      have hd := hb (w - z.offsetAt w - 86400)
      rw [localTime] at heq ⊢
      rcases Int.lt_or_le (firstSecond + 259200) (w - z.offsetAt w) with h | h
      · omega
      · have hu := hsame (w - z.offsetAt w) (by omega) h
        have hbefore := hsame (w - z.offsetAt w - 86400) (by omega) (by omega)
        omega

end

end Timespan.Zone
