/-
  The present periods in UTC. The keyword of a period resolves to the piece of time that holds the
  present, at every instant of the piece and to the same range (`periodInterval_utc_this_iff`), and
  the pieces are nested as the periods are.
-/
import Timespan.Proofs.Term.Reach

namespace Timespan

open Timespan.Calendar

/-! ## Periods made up of others -/

namespace Period

variable {p q : Period} {v : Fields}

inductive PartOf : Period → Period → Prop
  | dayOfWeek : PartOf .day .week
  | dayOfMonth : PartOf .day .month
  | monthOfQuarter : PartOf .month .quarter
  | quarterOfYear : PartOf .quarter .year

/-- Where the whole begins, a part begins too. -/
theorem PartOf.exists_begins (h : PartOf p q) (m : Int) : ∃ n, q.begins m = p.begins n := by
  cases h with
  | dayOfWeek => exact ⟨7 * m - 4, rfl⟩
  | dayOfMonth => exact ⟨monthsStart m, rfl⟩
  | monthOfQuarter => exact ⟨3 * m, rfl⟩
  | quarterOfYear =>
    refine ⟨4 * m, ?_⟩
    rw [begins, begins, show 3 * (4 * m) = 12 * m by omega]

theorem PartOf.cell_subset (h : PartOf p q) (hv : v.Valid) :
    (q.cell (q.number v)).start ≤ (p.cell (p.number v)).start ∧
      (p.cell (p.number v)).stop ≤ (q.cell (q.number v)).stop := by
  obtain ⟨hp1, hp2⟩ := p.rolled_mem hv
  obtain ⟨hq1, hq2⟩ := q.rolled_mem hv
  obtain ⟨a, ha⟩ := h.exists_begins (q.number v)
  obtain ⟨b, hb⟩ := h.exists_begins (q.number v + 1)
  have hfirst : a ≤ p.number v := by
    apply Int.le_of_not_gt
    intro hlt
    have := p.begins_mono (show p.number v + 1 ≤ a by omega)
    omega
  have hlast : p.number v + 1 ≤ b := by
    apply Int.le_of_not_gt
    intro hlt
    have := p.begins_mono (show b ≤ p.number v by omega)
    omega
  have := p.begins_mono hfirst
  have := p.begins_mono hlast
  simp only [cell]
  omega

end Period

namespace Keyword

open WallClock

variable {t : Int} {p : Period} {i : Interval}

/-- In UTC the present period resolves unless it begins before the calendar. -/
theorem periodInterval_utc_this_iff :
    periodInterval utc t .this p = .ok i ↔
      inCalendar t = true ∧ firstWall ≤ i.start ∧ i = p.cell (p.number (Fields.ofWall t)) := by
  rw [periodInterval_utc_iff, Relation.sign, Int.add_zero]
  refine and_congr_right fun hin => and_congr_right fun _ => and_iff_right ?_
  exact Period.not_beyond_of_nonpos (canonical_ofWall hin) (Int.le_refl 0)

end Keyword

namespace Term

open WallClock

/-- A quarter starts with January, April, July or October and holds three months. -/
theorem quarter_months {n : Int} (h : inCalendar (Period.quarter.begins n) = true) :
    ∃ year month, (month = 1 ∨ month = 4 ∨ month = 7 ∨ month = 10) ∧
      utc.fieldsAt (Period.quarter.begins n) = .ok ⟨year, month, 1, 0, 0, 0, 0⟩ ∧
      Period.quarter.begins (n + 1) = (Fields.mk year (month + 3) 1 0 0 0 0).rolled ∧
      ∀ u w, utc.fieldsAt u = .ok w →
        (Period.quarter.begins n ≤ u ∧ u < Period.quarter.begins (n + 1) ↔
          w.year = year ∧ month ≤ w.month ∧ w.month < month + 3) := by
  have hstart := Fields.rolled_firstOfQuarter n
  have hvalid : (Fields.firstOfQuarter n).Valid := Fields.valid_firstOfMonth _ (by omega)
  refine ⟨n / 4, 3 * (n % 4) + 1, by omega, ?_, (Fields.rolled_firstOfQuarter_add n).symm,
    fun u w hw => ?_⟩
  · refine fieldsAt_utc_eq_ok_iff.mpr ⟨h, ?_⟩
    rw [Period.begins, ← hstart, Fields.ofWall_rolled hvalid]
    rfl
  · obtain ⟨-, rfl⟩ := fieldsAt_utc_eq_ok_iff.mp hw
    have hmonth := (Fields.valid_ofWall u).date.month
    have hnumber := Period.quarter.number_eq_iff (n := n) (Fields.valid_ofWall u)
    rw [Fields.rolled_ofWall] at hnumber
    rw [← hnumber]
    simp only [Period.number, Fields.months]
    simp only at hmonth
    omega

/-- In UTC the keywords of the present periods cut time into pieces. A range holds the instant at
    which it was resolved, and at every other instant of the calendar in it the keyword resolves to
    the same range. Weeks have seven days and start on Sundays, quarters have the three months from
    January, April, July or October on, and a period lies in the longer ones that it is part of. -/
theorem resolve_this_utc {p : Period} {t : Int} {i : Interval}
    (h : resolve utc t (Keyword.period .this p).name.toList = .ok (.interval i)) :
    (i.start ≤ t ∧ t < i.stop) ∧
      (∀ u, inCalendar u = true → i.start ≤ u → u < i.stop →
        resolve utc u (Keyword.period .this p).name.toList = .ok (.interval i)) ∧
      (p = .week → i.stop = i.start + 7 * dayMillis ∧ i.start % (7 * dayMillis) = 3 * dayMillis) ∧
      (p = .quarter → ∃ year month, (month = 1 ∨ month = 4 ∨ month = 7 ∨ month = 10) ∧
        utc.fieldsAt i.start = .ok ⟨year, month, 1, 0, 0, 0, 0⟩ ∧
        i.stop = (Fields.mk year (month + 3) 1 0 0 0 0).rolled ∧
        ∀ u w, utc.fieldsAt u = .ok w →
          (i.start ≤ u ∧ u < i.stop ↔ w.year = year ∧ month ≤ w.month ∧ w.month < month + 3)) ∧
      (∀ q j, p.PartOf q → resolve utc t (Keyword.period .this q).name.toList = .ok (.interval j) →
        j.start ≤ i.start ∧ i.stop ≤ j.stop) := by
  obtain ⟨hin, hfirst, hcell⟩ := Keyword.periodInterval_utc_this_iff.mp (resolve_name_eq_ok_iff.mp h)
  have hmem := p.rolled_mem (Fields.valid_ofWall t)
  rw [Fields.rolled_ofWall] at hmem
  subst hcell
  refine ⟨hmem, fun u hu h1 h2 => ?_, ?_, ?_, fun q j hpart hj => ?_⟩
  · have hnumber : p.number (Fields.ofWall u) = p.number (Fields.ofWall t) := by
      rw [p.number_eq_iff (Fields.valid_ofWall u), Fields.rolled_ofWall]
      exact ⟨h1, h2⟩
    rw [resolve_name_eq_ok_iff, Keyword.periodInterval_utc_this_iff, hnumber]
    exact ⟨hu, hfirst, rfl⟩
  · rintro rfl
    simp only [Period.cell, Period.begins, dayMillis]
    omega
  · rintro rfl
    refine quarter_months ?_
    simp only [inCalendar, Bool.and_eq_true, decide_eq_true_eq] at hin ⊢
    exact ⟨hfirst, by omega⟩
  · obtain ⟨-, -, rfl⟩ := Keyword.periodInterval_utc_this_iff.mp (resolve_name_eq_ok_iff.mp hj)
    exact hpart.cell_subset (Fields.valid_ofWall t)

/-- The week that runs from 9599 into 9600, resolved on its last day and again on its first, and the
    quarter that starts on that last day. -/
theorem resolve_this_utc_new_year_9600 :
    (resolve utc 240779520000000 "thisweek".toList =
        .ok (.interval ⟨240779001600000, 240779606400000⟩) ∧
      resolve utc 240779001600000 "thisweek".toList =
        .ok (.interval ⟨240779001600000, 240779606400000⟩)) ∧
    (240779001600000 : Int) % (7 * dayMillis) = 3 * dayMillis ∧
    (∃ year month, (month = 1 ∨ month = 4 ∨ month = 7 ∨ month = 10) ∧
      utc.fieldsAt 240779520000000 = .ok ⟨year, month, 1, 0, 0, 0, 0⟩) ∧
    ∃ i, resolve utc 240779520000000 "today".toList = .ok (.interval i) ∧
      240779001600000 ≤ i.start ∧ i.stop ≤ 240779606400000 := by
  have hday : resolve utc 240779520000000 (Keyword.period .this .day).name.toList =
      .ok (.interval ⟨240779520000000, 240779606400000⟩) := by decide +kernel
  have hweek : resolve utc 240779520000000 (Keyword.period .this .week).name.toList =
      .ok (.interval ⟨240779001600000, 240779606400000⟩) := by decide +kernel
  have hquarter : resolve utc 240779520000000 (Keyword.period .this .quarter).name.toList =
      .ok (.interval ⟨240779520000000, 240787382400000⟩) := by decide +kernel
  obtain ⟨-, hsame, hsunday, -⟩ := resolve_this_utc hweek
  obtain ⟨-, -, -, hmonths, -⟩ := resolve_this_utc hquarter
  obtain ⟨-, -, -, -, hnested⟩ := resolve_this_utc hday
  obtain ⟨year, month, hmonth, hfields, -⟩ := hmonths rfl
  exact ⟨⟨hweek, hsame _ (by decide) (by decide) (by decide)⟩, (hsunday rfl).2,
    ⟨year, month, hmonth, hfields⟩, _, hday, hnested .week _ .dayOfWeek hweek⟩

end Term

end Timespan
