/-
  Weeks. The calendar takes weekdays from day numbers; here they are reckoned from the year, the
  month and the day of a date, as one does without counting days, and both come to the same
  (`Date.weekday_eq`). Fields, however far out of range, are brought to the Sunday of their week by
  the weekday of the date into which they roll over (`weekStart?_spec`). Only in the first six days
  of the calendar that Sunday lies before it.
-/
import Timespan.Proofs.Calendar.Order
import Timespan.Proofs.Calendar.Width
import Mathlib.Tactic.IntervalCases

namespace Timespan.Calendar

/-! ## Weekdays of dates -/

/-- How far the years up to the end of one have moved the weekday on: by one day each, and by one
    more in leap years. -/
def yearShift (year : Int) : Int := year + year / 4 - year / 100 + year / 400

/-- How far the months before one move the weekday on, where March is the third month and January
    the thirteenth. -/
def monthShift (month : Int) : Int := 13 * (month + 1) / 5 - 1

/-- The weekday of a date, 0 = Sunday. January and February count to the year before, so that the
    leap day is the last of its year. -/
def Date.weekday (d : Date) : Int :=
  if d.month ≤ 2 then (yearShift (d.year - 1) + monthShift (d.month + 12) + d.day) % 7
  else (yearShift d.year + monthShift d.month + d.day) % 7

/-- A year is 52 weeks and its shift. -/
theorem daysBeforeYear_eq_shift (year : Int) :
    daysBeforeYear (year + 1) = 364 * year + yearShift year := by
  unfold daysBeforeYear yearShift
  rw [Int.add_sub_cancel]
  omega

/-- A month is four weeks and its shift. -/
theorem daysBeforeMonth_eq_shift (leap : Bool) {month : Int} (h : 3 ≤ month ∧ month ≤ 12) :
    daysBeforeMonth leap month = 28 * (month - 1) + leapDay leap + monthShift month - 6 := by
  obtain ⟨hfirst, hlast⟩ := h
  unfold monthShift
  interval_cases month <;> cases leap <;> rfl

/-- The weekday of a date is that of its day number. -/
theorem Date.weekday_eq {d : Date} (h : 1 ≤ d.month ∧ d.month ≤ 12) :
    d.weekday = Calendar.weekday d.dayNumber := by
  obtain ⟨year, month, day⟩ := d
  simp only [weekday, Calendar.weekday, dayNumber, monthStart, epochDay] at h ⊢
  split
  · have hyear := daysBeforeYear_eq_shift (year - 1)
    rw [Int.sub_add_cancel] at hyear
    have hmonth : month = 1 ∨ month = 2 := by omega
    rcases hmonth with rfl | rfl <;> simp only [hyear, daysBeforeMonth, monthShift] <;> omega
  · -- from March on the leap day of the year has passed
    have hyear := daysBeforeYear_succ year
    rw [daysBeforeYear_eq_shift] at hyear
    rw [daysBeforeMonth_eq_shift _ (by omega)]
    omega

/-- The leap day of 2000 was a Tuesday. -/
example : (Date.mk 2000 2 29).weekday = 2 := by decide

namespace Fields

theorem weekday_ofWall (w : Int) :
    (ofWall w).date.weekday = Calendar.weekday (w / dayMillis) :=
  (Date.weekday_eq (valid_ofWall w).date.month).trans
    (congrArg Calendar.weekday (Date.dayNumber_ofDayNumber (w / dayMillis)))

/-! ## The start of a week -/

variable {v : Fields} {w u : Int}

theorem weekStart?_eq (h : v.wall? = some w) :
    v.weekStart? = some (v.add .day (-(ofWall w).date.weekday)) := by
  rw [weekStart?, h, weekday_ofWall]
  rfl

/-- Moving fields by days moves their wall time, and can lead out of the calendar. -/
theorem wall?_add_day (h : v.wall? = some w) (n : Int) :
    (v.add .day n).wall? =
      if inCalendar (w + n * dayMillis) then some (w + n * dayMillis) else none := by
  obtain ⟨hyear, -, rfl⟩ := wall?_eq_some_iff.mp h
  have hcarried : (v.add .day n).carriedYear = v.carriedYear := rfl
  have hmove : (v.add .day n).rolled = v.rolled + n * dayMillis := rolled_add_of_millis? v rfl n
  simp only [wall?, hcarried, hyear, hmove, true_and]

theorem eq_of_wall?_add_day {n : Int} (h : v.wall? = some w) (hu : (v.add .day n).wall? = some u) :
    u = w + n * dayMillis := by
  rw [wall?_add_day h] at hu
  split at hu
  · exact (Option.some.inj hu).symm
  · cases hu

/-- Moving by days, a wall time comes to the weekday that many days after its own. -/
theorem weekday_add_day (w n : Int) :
    (ofWall (w + n * dayMillis)).date.weekday = ((ofWall w).date.weekday + n) % 7 := by
  rw [weekday_ofWall, weekday_ofWall, Int.add_mul_ediv_right _ _ (by decide)]
  simp only [Calendar.weekday]
  omega

theorem weekday_range (w : Int) :
    0 ≤ (ofWall w).date.weekday ∧ (ofWall w).date.weekday ≤ 6 := by
  rw [weekday_ofWall, Calendar.weekday]
  omega

/-- The calendar begins on a Monday, so the Sunday before its first six days is missing. -/
theorem inCalendar_sunday_iff (h : inCalendar w = true) :
    inCalendar (w + -(ofWall w).date.weekday * dayMillis) = true ↔
      firstWall + 6 * dayMillis ≤ w := by
  rw [weekday_ofWall]
  simp only [inCalendar, Bool.and_eq_true, decide_eq_true_eq] at h ⊢
  simp only [firstWall, lastWall, Calendar.weekday, dayMillis] at h ⊢
  omega

/-- Fields are brought to the start of their week by lowering the day alone, and by the weekday of
    the date that they denote. The start denotes the Sunday before at the same time of day and is a
    start itself, unless it lies before the calendar, and fields that are whole weeks apart are
    lowered by as much. -/
theorem weekStart?_of_wall? (h : v.wall? = some w) :
    ∃ k, (0 ≤ k ∧ k ≤ 6) ∧ k = (ofWall w).date.weekday ∧
      v.weekStart? = some (v.add .day (-k)) ∧
      (∀ u, (v.add .day (-k)).wall? = some u →
        u = w - k * dayMillis ∧ u % dayMillis = w % dayMillis ∧ (ofWall u).date.weekday = 0 ∧
          (v.add .day (-k)).weekStart? = some (v.add .day (-k))) ∧
      ((v.add .day (-k)).wall? = none ↔ w < firstWall + 6 * dayMillis) ∧
      ∀ n u, (v.add .day (7 * n)).wall? = some u →
        (v.add .day (7 * n)).weekStart? = some ((v.add .day (7 * n)).add .day (-k)) := by
  obtain ⟨-, hin, -⟩ := wall?_eq_some_iff.mp h
  refine ⟨_, weekday_range w, rfl, weekStart?_eq h, fun u hu => ?_, ?_, fun n u hu => ?_⟩
  · obtain rfl := eq_of_wall?_add_day h hu
    have hsunday : (ofWall (w + -(ofWall w).date.weekday * dayMillis)).date.weekday = 0 := by
      rw [weekday_add_day, Int.add_right_neg]
      rfl
    have hagain := weekStart?_eq hu
    rw [hsunday] at hagain
    refine ⟨by rw [Int.neg_mul, Int.sub_eq_add_neg], Int.add_mul_emod_self_right _ _ _, hsunday, ?_⟩
    simpa [add] using hagain
  · rw [wall?_add_day h, ite_eq_right_iff, ← Int.not_le, ← inCalendar_sunday_iff hin]
    simp
  · obtain rfl := eq_of_wall?_add_day h hu
    have hrange := weekday_range w
    rw [weekStart?_eq hu, weekday_add_day, Int.add_mul_emod_self_left,
      Int.emod_eq_of_lt hrange.1 (by omega)]

/-- The 130th day counted from September 2000, and 47 hours more: the evening of Tuesday, 9 January
    2001. -/
theorem weekStart?_of_wall?_counted_through :
    (Fields.mk 2001 (-3) 130 47 0 0 0).wall? = some 979081200000 ∧
    (Fields.mk 2001 (-3) 130 47 0 0 0).weekStart? = some ⟨2001, -3, 128, 47, 0, 0, 0⟩ ∧
    (Fields.mk 2001 (-3) 128 47 0 0 0).wall? = some 978908400000 ∧
    (ofWall 978908400000).date.weekday = 0 ∧
    (Fields.mk 2001 (-3) 128 47 0 0 0).weekStart? = some ⟨2001, -3, 128, 47, 0, 0, 0⟩ ∧
    (Fields.mk 2001 (-3) 137 47 0 0 0).weekStart? = some ⟨2001, -3, 135, 47, 0, 0, 0⟩ := by
  have hwall : (Fields.mk 2001 (-3) 130 47 0 0 0).wall? = some 979081200000 := by decide
  have hsunday : (Fields.mk 2001 (-3) 128 47 0 0 0).wall? = some 978908400000 := by decide
  obtain ⟨k, -, hk, hstart, hback, -, hweeks⟩ := weekStart?_of_wall? hwall
  obtain rfl : k = 2 := hk.trans (by decide)
  obtain ⟨-, -, hweekday, hagain⟩ := hback _ hsunday
  exact ⟨hwall, hstart, hsunday, hweekday, hagain, hweeks 1 979686000000 (by decide)⟩

end Fields

end Timespan.Calendar
