/-
  The clock of UTC. Reading fields off it and bringing fields back are inverse to each other
  between the instants of the years 1 to 9999 and the fields in range in those years, and both
  keep the order. The years above 9599, which are brought back by way of the date 400 years
  before, are no exception: `instantOf_utc` has one value for all of them.
-/
import Timespan.Proofs.Calendar.Unit
import Timespan.Proofs.Except
import Timespan.WallClock

namespace Timespan

open Timespan.Calendar

/-! ## The cycle of 400 years -/

namespace Calendar

@[simp] theorem isLeap_sub_cycle (year : Int) : isLeap (year - 400) = isLeap year := by
  have h1 := isLeap_iff year
  have h2 := isLeap_iff (year - 400)
  rw [Bool.eq_iff_iff, h1, h2]
  omega

@[simp] theorem monthStart_sub_cycle (year month : Int) :
    monthStart (year - 400) month = monthStart year month - 146097 := by
  simp only [monthStart, isLeap_sub_cycle, daysBeforeYear]
  omega

end Calendar

namespace WallClock

theorem cycleBack_of_le {v : Fields} (h : v.year ≤ 9599) : cycleBack v = v := by
  rw [cycleBack, if_neg (by omega)]

theorem cycleBack_of_lt {v : Fields} (h : 9599 < v.year) :
    cycleBack v = { v with year := v.year - 400 } := by
  rw [cycleBack, if_pos h]

/-- The date 400 years before has the same month and weekday, 146097 days earlier. -/
theorem rolled_cycleBack (v : Fields) :
    (cycleBack v).rolled = if v.year > 9599 then v.rolled - cycleMillis else v.rolled := by
  split
  · rename_i h
    rw [cycleBack_of_lt h]
    have hy : (v.year * 12 + (v.month - 1)) / 12 - 400 =
        ((v.year - 400) * 12 + (v.month - 1)) / 12 := by omega
    have hm : ((v.year - 400) * 12 + (v.month - 1)) % 12 =
        (v.year * 12 + (v.month - 1)) % 12 := by omega
    simp only [Fields.rolled, Fields.carriedYear, Fields.carriedMonth, Fields.millisInMonth,
      ← hy, hm, monthStart_sub_cycle, cycleMillis, dayMillis]
    omega
  · rw [cycleBack_of_le (by omega)]

/-- The clock of UTC. -/
def utc : WallClock := .zoned Zone.utc

end WallClock

theorem Atlas.clock_utc (a : Atlas) : a.clock { utc := true } = WallClock.utc := rfl

namespace WallClock

/-! ## Fields of instants and instants of fields -/

@[simp] theorem interval_eq_ok_iff {c : WallClock} {v : Fields} {g : Grain} {n : Int}
    {i : Interval} :
    c.interval v g n = .ok i ↔
      c.instantOf v = .ok i.start ∧ c.instantOf (v.add g n) = .ok i.stop := by
  obtain ⟨start, stop⟩ := i
  simp [interval]

@[simp] theorem interval_eq_error_iff {c : WallClock} {v : Fields} {g : Grain} {n : Int}
    {e : Fault} :
    c.interval v g n = .error e ↔
      c.instantOf v = .error e ∨ (∃ t, c.instantOf v = .ok t) ∧ c.instantOf (v.add g n) = .error e := by
  simp [interval]

theorem fieldsAt_utc (t : Int) :
    utc.fieldsAt t =
      if inCalendar t then .ok (Fields.ofWall t) else .error (.instantOutOfRange t) := by
  have hw : Zone.utc.wallAt t = t := by simp [Zone.wallAt, Zone.utc, Zone.fixed]
  simp [fieldsAt, utc, zone, hw]

@[simp] theorem fieldsAt_utc_eq_ok_iff {t : Int} {v : Fields} :
    utc.fieldsAt t = .ok v ↔ inCalendar t = true ∧ Fields.ofWall t = v := by
  rw [fieldsAt_utc]
  split <;> simp_all

/-- Can the fields be brought back? The year that the months carry into and the wall time both
    have to lie in the calendar, for the fields or for those 400 years before. -/
def Covers (v : Fields) : Prop :=
  1 ≤ (cycleBack v).carriedYear ∧ (cycleBack v).carriedYear ≤ 9999 ∧
    inCalendar (cycleBack v).rolled = true

instance (v : Fields) : Decidable (Covers v) := inferInstanceAs (Decidable (_ ∧ _ ∧ _))

theorem wall?_cycleBack (v : Fields) :
    (cycleBack v).wall? = if Covers v then some (cycleBack v).rolled else none := rfl

theorem instantOf_utc (v : Fields) :
    utc.instantOf v =
      if Covers v then .ok v.rolled else .error (.fieldsOutOfRange (cycleBack v)) := by
  have hw : ∀ w, Zone.utc.instantOfWall w = w := by
    intro w
    simp [Zone.instantOfWall, Zone.offsetOfWall, Zone.utc, Zone.fixed]
  simp only [instantOf, utc, zone, ok_bind, wall?_cycleBack]
  by_cases h : Covers v
  · simp only [if_pos h, Option.bind_some, instantOfWall?, hw, rolled_cycleBack]
    split <;> simp
  · simp only [if_neg h, Option.bind_none]

@[simp] theorem instantOf_utc_eq_ok_iff {v : Fields} {t : Int} :
    utc.instantOf v = .ok t ↔ Covers v ∧ v.rolled = t := by
  rw [instantOf_utc]
  split <;> simp_all

theorem cycleBack_canonical {v : Fields} (h : v.Canonical) : (cycleBack v).Canonical := by
  rcases Int.lt_or_le 9599 v.year with hy | hy
  · rw [cycleBack_of_lt hy]
    obtain ⟨⟨⟨hm, hd⟩, h1, h2, h3, h4⟩, hlo, hhi⟩ := h
    refine ⟨⟨⟨hm, ?_⟩, h1, h2, h3, h4⟩, ?_, ?_⟩
    · simpa only [monthLength, isLeap_sub_cycle] using hd
    · simp only; omega
    · simp only; omega
  · rwa [cycleBack_of_le hy]

/-- Fields in range in a year of the calendar can be brought back. -/
theorem covers_of_canonical {v : Fields} (h : v.Canonical) : Covers v := by
  have hc := cycleBack_canonical h
  have hy := Fields.carriedYear_eq hc.valid.date.month
  have hin := (Fields.inCalendar_rolled_iff hc.valid).mpr hc.year
  refine ⟨?_, ?_, hin⟩ <;> rw [hy]
  · exact hc.year.1
  · exact hc.year.2

/-- Fields near a month of the calendar or of the year after it. -/
structure Near (v : Fields) : Prop where
  year : v.year ≤ 10001
  month : -11 ≤ v.month ∧ v.month ≤ 24
  months : 12 ≤ v.months
  millis : -31 * dayMillis ≤ v.millisInMonth ∧ v.millisInMonth ≤ 62 * dayMillis

/-- They can be brought back too, unless they denote a wall time before the calendar. -/
theorem covers_of_near {v : Fields} (h : Near v) (hfirst : firstWall ≤ v.rolled) : Covers v := by
  have hback := rolled_cycleBack v
  have hrolled := Fields.rolled_eq_months v
  have hcalendar :
      firstWall + cycleMillis + 31 * dayMillis ≤ monthsStart (9600 * 12 - 12) * dayMillis ∧
      monthsStart (9600 * 12 + 11) * dayMillis + 62 * dayMillis ≤ lastWall ∧
      monthsStart (10001 * 12 + 23) * dayMillis + 62 * dayMillis ≤ lastWall + cycleMillis := by
    decide
  obtain ⟨hyear, hmonth, hmonths, hms⟩ := h
  simp only [Fields.months] at hrolled hmonths
  simp only [dayMillis] at hms hrolled hcalendar
  rw [Covers, inCalendar, Bool.and_eq_true, decide_eq_true_eq, decide_eq_true_eq, hback]
  rcases Int.lt_or_le 9599 v.year with hfar | hnear
  · have := monthsStart_mono (show 9600 * 12 - 12 ≤ v.year * 12 + (v.month - 1) by omega)
    have := monthsStart_mono (show v.year * 12 + (v.month - 1) ≤ 10001 * 12 + 23 by omega)
    rw [if_pos hfar, cycleBack_of_lt hfar]
    simp only [Fields.carriedYear]
    omega
  · have := monthsStart_mono (show v.year * 12 + (v.month - 1) ≤ 9600 * 12 + 11 by omega)
    rw [if_neg (by omega), cycleBack_of_le hnear]
    simp only [Fields.carriedYear]
    omega

theorem firstWall_le_of_covers {v : Fields} (h : Covers v) : firstWall ≤ v.rolled := by
  have hback := rolled_cycleBack v
  have hpos : 0 < cycleMillis := by decide
  have hin := h.2.2
  rw [inCalendar, Bool.and_eq_true, decide_eq_true_eq] at hin
  split at hback <;> omega

theorem canonical_ofWall {t : Int} (h : inCalendar t = true) : (Fields.ofWall t).Canonical := by
  have hv := Fields.valid_ofWall t
  refine ⟨hv, (Fields.inCalendar_rolled_iff hv).mp ?_⟩
  rwa [Fields.rolled_ofWall]

/-- Every clock shows fields in range in a year of the calendar. -/
theorem canonical_of_fieldsAt {c : WallClock} {t : Int} {v : Fields} (h : c.fieldsAt t = .ok v) :
    v.Canonical := by
  obtain ⟨z, -, h⟩ := bind_eq_ok_iff.mp h
  dsimp only at h
  split at h
  · rename_i hin
    rw [← Except.ok.inj h]
    exact canonical_ofWall (Bool.and_eq_true_iff.mp hin).2
  · cases h

theorem instantOf_ofWall {t : Int} (h : inCalendar t = true) :
    utc.instantOf (Fields.ofWall t) = .ok t :=
  instantOf_utc_eq_ok_iff.mpr ⟨covers_of_canonical (canonical_ofWall h), Fields.rolled_ofWall t⟩

theorem fieldsAt_rolled {v : Fields} (h : v.Canonical) : utc.fieldsAt v.rolled = .ok v :=
  fieldsAt_utc_eq_ok_iff.mpr
    ⟨(Fields.inCalendar_rolled_iff h.valid).mpr h.year, Fields.ofWall_rolled h.valid⟩

/-- The fields read off in UTC are ordered as their instants. -/
theorem fieldsAt_utc_lt_iff {t u : Int} {v w : Fields} (hv : utc.fieldsAt t = .ok v)
    (hw : utc.fieldsAt u = .ok w) : t < u ↔ v.toList < w.toList := by
  obtain ⟨-, rfl⟩ := fieldsAt_utc_eq_ok_iff.mp hv
  obtain ⟨-, rfl⟩ := fieldsAt_utc_eq_ok_iff.mp hw
  rw [← Fields.rolled_lt_iff (Fields.valid_ofWall t) (Fields.valid_ofWall u),
    Fields.rolled_ofWall, Fields.rolled_ofWall]

theorem fieldsAt_utc_outside {t : Int} (h : inCalendar t = false)
    (hw : Text.writable t = true) :
    utc.fieldsAt t = .error (.rejected (.instantOutOfRange t)) := by
  rw [fieldsAt_utc, h, Fault.instantOutOfRange, if_pos hw]
  rfl

/-- In UTC the instants of the years 1 to 9999 and the fields in range in those years stand for
    one another, in the same order; an instant outside those years has no fields. -/
theorem utc_bijection :
    (∀ t : Int, -62135596800000 ≤ t → t ≤ 253402300799999 →
      ∃ v, utc.fieldsAt t = .ok v ∧ v.Canonical ∧ utc.instantOf v = .ok t) ∧
    (∀ v : Fields, v.Canonical →
      ∃ t, utc.instantOf v = .ok t ∧ -62135596800000 ≤ t ∧ t ≤ 253402300799999 ∧
        utc.fieldsAt t = .ok v) ∧
    (∀ t : Int, ¬ (-62135596800000 ≤ t ∧ t ≤ 253402300799999) → Text.writable t = true →
      ∃ cause, utc.fieldsAt t = .error (.rejected cause) ∧ cause.kind = .outOfRange) ∧
    (∀ (t u : Int) (v w : Fields), utc.fieldsAt t = .ok v → utc.fieldsAt u = .ok w →
      (t < u ↔ v.toList < w.toList)) := by
  have hin : ∀ t, inCalendar t = true ↔ -62135596800000 ≤ t ∧ t ≤ 253402300799999 := by
    intro t
    simp only [inCalendar, Bool.and_eq_true, decide_eq_true_eq]
    exact Iff.rfl
  refine ⟨?_, ?_, ?_, ?_⟩
  · intro t h1 h2
    have ht := (hin t).mpr ⟨h1, h2⟩
    exact ⟨_, fieldsAt_utc_eq_ok_iff.mpr ⟨ht, rfl⟩, canonical_ofWall ht, instantOf_ofWall ht⟩
  · intro v hv
    have ht := (hin _).mp ((Fields.inCalendar_rolled_iff hv.valid).mpr hv.year)
    exact ⟨v.rolled, instantOf_utc_eq_ok_iff.mpr ⟨covers_of_canonical hv, rfl⟩, ht.1, ht.2,
      fieldsAt_rolled hv⟩
  · intro t ht hw
    rw [← hin, Bool.not_eq_true] at ht
    exact ⟨_, fieldsAt_utc_outside ht hw, rfl⟩
  · intro t u v w hv hw
    exact fieldsAt_utc_lt_iff hv hw

/-- The leap day of 9600, reached from both sides, the first millisecond after the last year, and
    the step from one year to the next. -/
theorem utc_bijection_far_leap_day :
    (∃ v, utc.fieldsAt 240784617600000 = .ok v ∧ v.Canonical ∧
      utc.instantOf v = .ok 240784617600000) ∧
    (∃ t, utc.instantOf ⟨9600, 2, 29, 0, 0, 0, 0⟩ = .ok t ∧ -62135596800000 ≤ t ∧
      t ≤ 253402300799999 ∧ utc.fieldsAt t = .ok ⟨9600, 2, 29, 0, 0, 0, 0⟩) ∧
    (∃ cause, utc.fieldsAt 253402300800000 = .error (.rejected cause) ∧
      cause.kind = .outOfRange) ∧
    ((-1 : Int) < 0 ↔
      (Fields.mk 1969 12 31 23 59 59 999).toList < (Fields.mk 1970 1 1 0 0 0 0).toList) := by
  obtain ⟨h1, h2, h3, h4⟩ := utc_bijection
  refine ⟨h1 _ (by decide) (by decide), h2 _ ?_, h3 _ (by decide) ?_,
    h4 _ _ _ _ (by rfl) (by rfl)⟩
  · exact ⟨⟨⟨by decide, by decide⟩, by decide, by decide, by decide, by decide⟩, by decide⟩
  · decide +kernel

end WallClock

end Timespan
