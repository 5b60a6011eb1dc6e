/-
  Arithmetic on the clock of UTC. Fields of any size come to a number of milliseconds that is
  counted out by months and linear in all that is below them. That number decides whether they can
  be brought back, and it is the instant that they are brought back to, save that years above 9599
  are reckoned 400 years earlier and shifted back (`instantOf_utc_linear`). So ranges have the exact
  width of their units, in months and years that of the months that they pass over, and ranges of
  one grain that follow one another join (`interval_utc_width`).
-/
import Timespan.Proofs.Calendar.Bounds
import Timespan.Proofs.Calendar.Count
import Timespan.Proofs.Clock.Utc

namespace Timespan

open Timespan.Calendar

/-! ## Reckoning -/

namespace Calendar.Fields

/-- Years above 9599 are reckoned 400 years earlier. -/
def yearsBack (v : Fields) : Int := if 9599 < v.year then 400 else 0

/-- The month in which fields are reckoned, counted from January of year 0. -/
def reckonedMonth (v : Fields) : Int := (v.year - v.yearsBack) * 12 + v.month - 1

/-- The milliseconds since 1970 that fields come to: up to the first day of their month they are
    counted out month by month, and every unit from there on has one length. -/
def reckoned (v : Fields) : Int :=
  countedStart v.reckonedMonth * 86400000 + (v.day - 1) * 86400000 + v.hour * 3600000 +
    v.minute * 60000 + v.second * 1000 + v.milli

/-- Both the month and the milliseconds lie in the years 1 to 9999. -/
structure Reckonable (v : Fields) : Prop where
  month : 1 ≤ v.reckonedMonth / 12 ∧ v.reckonedMonth / 12 ≤ 9999
  millis : countedStart (1 * 12) * 86400000 ≤ v.reckoned ∧
    v.reckoned < countedStart (10000 * 12) * 86400000

theorem reckonedMonth_eq (v : Fields) : v.reckonedMonth = (WallClock.cycleBack v).months := by
  unfold reckonedMonth yearsBack WallClock.cycleBack
  by_cases hyear : 9599 < v.year
  · rw [if_pos hyear, if_pos hyear]
    simp only [months]
    omega
  · rw [if_neg hyear, if_neg hyear]
    simp only [months]
    omega

@[simp] theorem millisInMonth_cycleBack (v : Fields) :
    (WallClock.cycleBack v).millisInMonth = v.millisInMonth := by
  unfold WallClock.cycleBack
  split <;> rfl

theorem reckoned_eq (v : Fields) : v.reckoned = (WallClock.cycleBack v).rolled := by
  rw [rolled_eq_months, millisInMonth_cycleBack, ← reckonedMonth_eq, monthsStart_eq_countedStart]
  unfold reckoned millisInMonth dayMillis hourMillis minuteMillis secondMillis
  omega

theorem rolled_eq_reckoned (v : Fields) :
    v.rolled = v.reckoned + if 9599 < v.year then 146097 * 86400000 else 0 := by
  have hback := WallClock.rolled_cycleBack v
  rw [← reckoned_eq] at hback
  unfold cycleMillis dayMillis at hback
  split at hback <;> split <;> omega

theorem covers_iff_reckonable (v : Fields) : WallClock.Covers v ↔ v.Reckonable := by
  have hyear : (WallClock.cycleBack v).carriedYear = v.reckonedMonth / 12 := by
    rw [reckonedMonth_eq]
    rfl
  have hfirst : monthsStart (1 * 12) = monthStart 1 1 := by decide
  have hpast : monthsStart (10000 * 12) = monthStart 10000 1 := by decide
  unfold WallClock.Covers
  rw [hyear, ← reckoned_eq, inCalendar_iff, ← hfirst, ← hpast, monthsStart_eq_countedStart,
    monthsStart_eq_countedStart]
  constructor
  · intro h
    exact ⟨⟨h.1, h.2.1⟩, h.2.2⟩
  · intro h
    exact ⟨h.month.1, h.month.2, h.millis⟩

end Calendar.Fields

/-- A numeral that is no longer than one that can be written can be written. -/
theorem Text.writable_of_natAbs_le {m n : Int} (h : m.natAbs ≤ n.natAbs)
    (hn : writable n = true) : writable m = true := by
  unfold writable at hn ⊢
  rw [decide_eq_true_eq] at hn ⊢
  exact Nat.lt_of_le_of_lt h hn

namespace WallClock

/-- A rejection can name the fields 400 years earlier if it can name the fields. -/
theorem fieldsOutOfRange_cycleBack {v : Fields}
    (h : ∀ g, Text.writable (v.get g) = true) :
    Fault.fieldsOutOfRange (cycleBack v) = .rejected (.fieldsOutOfRange (cycleBack v)) := by
  have hyear : Text.writable (cycleBack v).year = true := by
    refine Text.writable_of_natAbs_le ?_ (h .year)
    unfold cycleBack
    split
    · simp only [Fields.get]
      omega
    · exact Nat.le_refl _
  have hrest : (cycleBack v).toList = (cycleBack v).year :: v.toList.tail := by
    unfold cycleBack
    split <;> rfl
  unfold Fault.fieldsOutOfRange
  rw [if_pos]
  rw [hrest, List.all_eq_true]
  intro x hx
  simp only [Fields.toList, List.tail_cons, List.mem_cons, List.not_mem_nil, or_false] at hx
  rcases hx with rfl | rfl | rfl | rfl | rfl | rfl | rfl
  · exact hyear
  · exact h .month
  · exact h .day
  · exact h .hour
  · exact h .minute
  · exact h .second
  · exact h .milli

/-- In UTC fields of any size are brought back when they are reckonable, to the milliseconds that
    they come to, and they are out of range otherwise. So adding to a field from the day down moves
    the instant by as many units, and twelve months move it as far as a year. -/
theorem instantOf_utc_linear (v : Fields) (hw : ∀ g, Text.writable (v.get g) = true) :
    (v.Reckonable →
      utc.instantOf v = .ok (v.reckoned + if 9599 < v.year then 146097 * 86400000 else 0)) ∧
    (¬ v.Reckonable →
      ∃ cause, utc.instantOf v = .error (.rejected cause) ∧ cause.kind = .outOfRange) ∧
    (∀ g m n t u, g.millis? = some m → utc.instantOf v = .ok t →
      utc.instantOf (v.add g n) = .ok u → u = t + n * m) ∧
    (∀ n t u, utc.instantOf (v.add .month (12 * n)) = .ok t →
      utc.instantOf (v.add .year n) = .ok u → t = u) := by
  refine ⟨?_, ?_, ?_, ?_⟩
  · intro h
    rw [← Fields.rolled_eq_reckoned]
    exact instantOf_utc_eq_ok_iff.mpr ⟨v.covers_iff_reckonable.mpr h, rfl⟩
  · intro h
    rw [instantOf_utc, if_neg (mt v.covers_iff_reckonable.mp h), fieldsOutOfRange_cycleBack hw]
    exact ⟨_, rfl, rfl⟩
  · intro g m n t u hg ht hu
    obtain ⟨-, rfl⟩ := instantOf_utc_eq_ok_iff.mp ht
    obtain ⟨-, rfl⟩ := instantOf_utc_eq_ok_iff.mp hu
    exact v.rolled_add_of_millis? hg n
  · intro n t u ht hu
    obtain ⟨-, rfl⟩ := instantOf_utc_eq_ok_iff.mp ht
    obtain ⟨-, rfl⟩ := instantOf_utc_eq_ok_iff.mp hu
    exact (v.rolled_add_year n).symm

/-- Hours and minutes beyond all bounds that cancel on the day after the calendar; the first day of
    the calendar, written in the month before it; 25 hours on, over New Year 9600, and that New Year
    reached by months and by a year. -/
theorem instantOf_utc_linear_far :
    utc.instantOf ⟨9999, 13, 1, 10 ^ 40, -60 * 10 ^ 40, 0, 7⟩ = .ok 253402300800007 ∧
    (∃ cause, utc.instantOf ⟨0, 12, 32, 0, 0, 0, 0⟩ = .error (.rejected cause) ∧
      cause.kind = .outOfRange) ∧
    (∀ t u, utc.instantOf ⟨9599, 12, 31, 0, 0, 0, 0⟩ = .ok t →
      utc.instantOf ⟨9599, 12, 31, 25, 0, 0, 0⟩ = .ok u → u = t + 25 * 3600000) ∧
    (∀ t u, utc.instantOf ⟨9599, 13, 1, 0, 0, 0, 0⟩ = .ok t →
      utc.instantOf ⟨9600, 1, 1, 0, 0, 0, 0⟩ = .ok u → t = u) := by
  have hlong : ∀ g, Text.writable
      ((⟨9999, 13, 1, 10 ^ 40, -60 * 10 ^ 40, 0, 7⟩ : Fields).get g) = true := by
    intro g
    cases g <;> decide +kernel
  have hshort : ∀ v : Fields, v.Within 9999 → ∀ g, Text.writable (v.get g) = true := by
    intro v hv g
    have := hv g
    exact Text.writable_of_natAbs_lt (by omega)
  have hcancel : (⟨9999, 13, 1, 10 ^ 40, -60 * 10 ^ 40, 0, 7⟩ : Fields).Reckonable :=
    (Fields.covers_iff_reckonable _).mp (by decide +kernel)
  have hearly : ¬ (⟨0, 12, 32, 0, 0, 0, 0⟩ : Fields).Reckonable :=
    mt (Fields.covers_iff_reckonable _).mpr (by decide +kernel)
  refine ⟨?_, ?_, ?_, ?_⟩
  · rw [(instantOf_utc_linear _ hlong).1 hcancel, ← Fields.rolled_eq_reckoned]
    decide +kernel
  · exact (instantOf_utc_linear _ (hshort _ (Fields.within_iff.mpr (by decide)))).2.1 hearly
  · intro t u ht hu
    exact (instantOf_utc_linear ⟨9599, 12, 31, 0, 0, 0, 0⟩
      (hshort _ (Fields.within_iff.mpr (by decide)))).2.2.1 .hour 3600000 25 t u rfl ht hu
  · intro t u ht hu
    exact (instantOf_utc_linear ⟨9599, 1, 1, 0, 0, 0, 0⟩
      (hshort _ (Fields.within_iff.mpr (by decide)))).2.2.2 1 t u ht hu

end WallClock

/-! ## Ranges -/

namespace Calendar

/-- The milliseconds of `n` units of a grain for fields of the `k`th month. -/
def Grain.width (k n : Int) : Grain → Int
  | .year => daysAcross k (12 * n) * 86400000
  | .month => daysAcross k n * 86400000
  | .day => n * 86400000
  | .hour => n * 3600000
  | .minute => n * 60000
  | .second => n * 1000
  | .milli => n

namespace Fields

theorem rolled_add (v : Fields) (g : Grain) (n : Int) :
    (v.add g n).rolled = v.rolled + g.width v.months n := by
  cases g with
  | year => rw [rolled_add_year, rolled_add_month]; rfl
  | month => rw [rolled_add_month]; rfl
  | milli => rw [rolled_add_of_millis? v rfl, Int.mul_one]; rfl
  | _ => exact rolled_add_of_millis? v rfl n

@[simp] theorem add_add (v : Fields) (g : Grain) (a b : Int) :
    (v.add g a).add g b = v.add g (a + b) := by
  cases g <;> simp only [add, Int.add_assoc]

end Fields

end Calendar

namespace WallClock

variable {c : WallClock} {v : Fields} {g : Grain} {a b n : Int} {i j : Interval}

theorem width_of_interval_utc (h : utc.interval v g n = .ok i) :
    i.stop - i.start = g.width v.months n := by
  obtain ⟨hstart, hstop⟩ := interval_eq_ok_iff.mp h
  obtain ⟨-, hstart⟩ := instantOf_utc_eq_ok_iff.mp hstart
  obtain ⟨-, hstop⟩ := instantOf_utc_eq_ok_iff.mp hstop
  rw [← hstart, ← hstop, Fields.rolled_add]
  omega

/-- A range can be continued just when the two together are a range. -/
theorem interval_add_iff (h : c.interval v g a = .ok i) :
    c.interval (v.add g a) g b = .ok j ↔
      j.start = i.stop ∧ c.interval v g (a + b) = .ok ⟨i.start, j.stop⟩ := by
  obtain ⟨hstart, hstop⟩ := interval_eq_ok_iff.mp h
  rw [interval_eq_ok_iff, interval_eq_ok_iff, Fields.add_add]
  constructor
  · intro hj
    have hmeet : Except.ok i.stop = Except.ok j.start := hstop.symm.trans hj.1
    exact ⟨(Except.ok.inj hmeet).symm, hstart, hj.2⟩
  · intro hj
    rw [hj.1]
    exact ⟨hstop, hj.2.2⟩

/-- In UTC ranges are as wide as their units: fixed from the day down, and in months or years as
    wide as the months passed over from that of the fields, whatever their day and time. On every
    clock ranges of one grain join where one stops at the fields that the other starts from. -/
theorem interval_utc_width (v : Fields) (g : Grain) :
    (∀ n i, utc.interval v g n = .ok i → i.stop - i.start = g.width v.months n) ∧
    (∀ (c : WallClock) a b i j, c.interval v g a = .ok i →
      (c.interval (v.add g a) g b = .ok j ↔
        j.start = i.stop ∧ c.interval v g (a + b) = .ok ⟨i.start, j.stop⟩)) := by
  refine ⟨?_, ?_⟩
  · intro n i h
    exact width_of_interval_utc h
  · intro c a b i j h
    exact interval_add_iff h

/-- Thirteen months back from the end of a February that has no such day pass over February to
    December 2020 and two Januaries; and two years that meet at New Year 9600. -/
theorem interval_utc_width_leap_year :
    utc.interval ⟨2021, 2, 31, 25, 0, 0, 0⟩ .month (-13) = .ok ⟨1614819600000, 1580518800000⟩ ∧
    (1580518800000 - 1614819600000 : Int) = -397 * 86400000 ∧
    utc.interval ⟨9599, 1, 1, 0, 0, 0, 0⟩ .year 2 = .ok ⟨240747984000000, 240811142400000⟩ := by
  have hback : utc.interval ⟨2021, 2, 31, 25, 0, 0, 0⟩ .month (-13) =
      .ok ⟨1614819600000, 1580518800000⟩ := by decide +kernel
  have hyear : utc.interval ⟨9599, 1, 1, 0, 0, 0, 0⟩ .year 1 =
      .ok ⟨240747984000000, 240779520000000⟩ := by decide +kernel
  have hnext : utc.interval ⟨9600, 1, 1, 0, 0, 0, 0⟩ .year 1 =
      .ok ⟨240779520000000, 240811142400000⟩ := by decide +kernel
  have hwidth : Grain.width (2021 * 12 + 1) (-13) .month = -397 * 86400000 := by decide +kernel
  refine ⟨hback, ?_, ?_⟩
  · exact ((interval_utc_width _ _).1 _ _ hback).trans hwidth
  · exact (((interval_utc_width _ _).2 _ 1 1 _ _ hyear).mp hnext).2

end WallClock

end Timespan
