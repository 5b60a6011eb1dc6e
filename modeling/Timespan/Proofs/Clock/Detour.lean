/-
  The last 400 years of the calendar and the year after it. Fields whose year is written above 9599
  are brought back by way of the date 400 years before, and in a zone whose offsets repeat by then
  nobody can tell: a wall time of the last cycle comes to the instant that the zone's own offset
  gives, however its fields are written, and one after the calendar comes to the instant of 400
  years before, a cycle later (`instantOf_lastCycle`). The offsets may change as often as they like;
  it is enough that they are shorter than a day.
-/
import Timespan.Proofs.Clock.RoundTrip
import Timespan.Proofs.Zone.Recurrence

namespace Timespan

open Timespan.Calendar

/-- A wall time of the years 9600 to 9999. -/
def Calendar.InLastCycle (w : Int) : Prop :=
  monthStart 9600 1 * dayMillis ≤ w ∧ w < monthStart 10000 1 * dayMillis

instance (w : Int) : Decidable (Calendar.InLastCycle w) :=
  inferInstanceAs (Decidable (_ ∧ _))

namespace WallClock

variable {c : WallClock} {z : Zone} {v v' : Fields} {t t' : Int}

/-- Fields that are brought back though they denote a wall time after the calendar go by a date of
    the last cycle. -/
theorem inLastCycle_of_covers (h : Covers v) (hpast : monthStart 10000 1 * dayMillis ≤ v.rolled) :
    9599 < v.year ∧ InLastCycle (v.rolled - cycleMillis) := by
  have hcycle : monthStart 9600 1 = monthStart 10000 1 - 146097 := monthStart_sub_cycle 10000 1
  have hin := Fields.inCalendar_iff.mp h.2.2
  rw [rolled_cycleBack] at hin
  unfold InLastCycle
  unfold cycleMillis dayMillis at *
  split at hin
  · rename_i hyear
    omega
  · omega

/-- The fields in range of a wall time of the last cycle. -/
theorem canonical_ofWall_of_inLastCycle {w : Int} (h : InLastCycle w) :
    (Fields.ofWall w).Canonical ∧ 9600 ≤ (Fields.ofWall w).year := by
  have hfirst : firstWall ≤ monthStart 9600 1 * dayMillis := by decide
  have hlast := Fields.lastWall_eq
  obtain ⟨hlo, hhi⟩ := h
  have hcanonical : (Fields.ofWall w).Canonical := by
    apply canonical_ofWall
    rw [inCalendar, Bool.and_eq_true, decide_eq_true_eq, decide_eq_true_eq]
    omega
  refine ⟨hcanonical, ?_⟩
  have hyear := Fields.rolled_mem_year hcanonical.valid
  rw [Fields.rolled_ofWall] at hyear
  by_contra hlt
  have := monthStart_one_mono (show (Fields.ofWall w).year + 1 ≤ 9600 by omega)
  unfold dayMillis at *
  omega

section

variable (hz : c.zone = .ok z) (hb : z.Bounded)
include hz hb

/-- All fields in range of the last cycle are brought back. -/
theorem exists_instantOf_lastCycle (hv : v.Canonical) (hyear : 9600 ≤ v.year) :
    ∃ t, c.instantOf v = .ok t := by
  cases c with
  | zoned y => exact exists_instantOf_zoned (covers_of_canonical hv)
  | host y =>
    cases hz
    have hstart : firstWall + 3 * dayMillis ≤ monthStart 9600 1 * dayMillis := by decide
    have hlo := (Fields.rolled_mem_year hv.valid).1
    have hmono := monthStart_one_mono hyear
    refine exists_instantOf_host_of_bounded hb hv ?_
    unfold dayMillis at *
    omega
  | unknown name => cases hz

variable (hc : z.Cyclic)
include hc

/-- Fields of a wall time of the last cycle name its instant, whatever their year. -/
theorem eq_direct_of_inLastCycle (h : c.instantOf v = .ok t) (hin : InLastCycle v.rolled) :
    t = c.direct v.rolled :=
  instantOf_eq_direct hz hb hc h fun _ => hin.1

/-- In a zone whose offsets repeat every 400 years from the year 9000 on, the way by the earlier
    date does not show. Fields of a wall time of the last cycle, with a year above 9599, come to the
    instant of that wall time itself; fields in range of that cycle always come to an instant; two
    fields of one wall time of the cycle come to one instant, whichever way they go; and fields of a
    wall time after the calendar come to an instant just one cycle after that of 400 years
    earlier. -/
theorem instantOf_lastCycle :
    (∀ v t, 9599 < v.year → c.instantOf v = .ok t → InLastCycle v.rolled →
      t = c.direct v.rolled ∧ ∀ s, c.instantOfWall? v.rolled = some s → s = t) ∧
    (∀ v : Fields, v.Canonical → 9600 ≤ v.year → ∃ t, c.instantOf v = .ok t) ∧
    (∀ v v' t t', v.rolled = v'.rolled → InLastCycle v.rolled → c.instantOf v = .ok t →
      c.instantOf v' = .ok t' → t = t') ∧
    (∀ v t, c.instantOf v = .ok t → monthStart 10000 1 * dayMillis ≤ v.rolled →
      (∃ s, c.instantOf (Fields.ofWall (v.rolled - cycleMillis)) = .ok s) ∧
      ∀ v' s, v'.rolled = v.rolled - cycleMillis → c.instantOf v' = .ok s →
        t = s + cycleMillis) := by
  have hdirect : ∀ v t, c.instantOf v = .ok t → InLastCycle v.rolled → t = c.direct v.rolled :=
    fun v t h hin => eq_direct_of_inLastCycle hz hb hc h hin
  refine ⟨?_, ?_, ?_, ?_⟩
  · intro v t _ h hin
    refine ⟨hdirect v t h hin, fun s hs => ?_⟩
    rw [hdirect v t h hin, eq_direct_of_instantOfWall? hs]
  · intro v hv hyear
    exact exists_instantOf_lastCycle hz hb hv hyear
  · intro v v' t t' hrolled hin h h'
    rw [hdirect v t h hin, hdirect v' t' h' (hrolled ▸ hin), hrolled]
  · intro v t h hpast
    have hcovers := ((instantOf_eq_ok_iff hz).mp h).1
    obtain ⟨hyear, hin⟩ := inLastCycle_of_covers hcovers hpast
    obtain ⟨hcanonical, hlate⟩ := canonical_ofWall_of_inLastCycle hin
    refine ⟨exists_instantOf_lastCycle hz hb hcanonical hlate, fun v' s hrolled hs => ?_⟩
    -- both go by the offset at the wall time 400 years before
    have hfar : monthStart 9600 1 * dayMillis ≤ v.rolled := by
      have hcycle : 0 ≤ cycleMillis := by decide
      have := hin.1
      omega
    rw [instantOf_eq_direct hz hb hc h fun _ => hfar, hdirect v' s hs (hrolled ▸ hin), hrolled,
      direct_sub_cycle hz hb hc hfar]
    omega

end

/-- A summer noon of the last year in New York; New Year 9600 on the clock of an eastern host,
    written in that year and as a thirteenth month; and the day after the calendar on that clock. -/
theorem instantOf_lastCycle_new_year :
    (∃ z t, Zone.named? "America/New_York" = some z ∧
      (zoned z).instantOf ⟨9999, 7, 1, 12, 0, 0, 0⟩ = .ok t ∧
      (zoned z).instantOfWall? (Fields.rolled ⟨9999, 7, 1, 12, 0, 0, 0⟩) = some t) ∧
    (∀ t t', (host Zone.eastern).instantOf ⟨9599, 13, 1, 0, 0, 0, 0⟩ = .ok t →
      (host Zone.eastern).instantOf ⟨9600, 1, 1, 0, 0, 0, 0⟩ = .ok t' → t = t') ∧
    (host Zone.eastern).instantOf ⟨9999, 12, 32, 0, 0, 0, 0⟩ = .ok 253402318800000 ∧
    ∀ s, (host Zone.eastern).instantOf ⟨9600, 1, 1, 0, 0, 0, 0⟩ = .ok s →
      253402318800000 = s + cycleMillis := by
  have hpast : (host Zone.eastern).instantOf ⟨9999, 12, 32, 0, 0, 0, 0⟩ = .ok 253402318800000 := by
    decide +kernel
  obtain ⟨-, -, hsame, hlater⟩ := instantOf_lastCycle (c := host Zone.eastern) rfl
    Zone.eastern_regular.bounded Zone.eastern_cyclic
  refine ⟨?_, ?_, hpast, ?_⟩
  · obtain ⟨z, hname⟩ : ∃ z, Zone.named? "America/New_York" = some z := ⟨_, rfl⟩
    obtain ⟨hdirect, hall, -, -⟩ := instantOf_lastCycle (c := zoned z) rfl
      (Zone.named?_bounded hname) (Zone.named?_cyclic hname)
    obtain ⟨t, ht⟩ := hall ⟨9999, 7, 1, 12, 0, 0, 0⟩ (Fields.canonical_iff.mpr (by decide))
      (by decide)
    obtain ⟨-, hshown⟩ := hdirect _ t (by decide) ht (by decide)
    exact ⟨z, t, hname, ht, congrArg some (hshown _ rfl)⟩
  · intro t t' ht ht'
    exact hsame _ _ t t' (by decide) (by decide) ht ht'
  · intro s hs
    exact (hlater _ _ hpast (by decide)).2 _ s (by decide) hs

end WallClock

end Timespan
