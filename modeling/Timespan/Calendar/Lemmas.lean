/-
  Day numbers and dates are inverse to each other, and so are wall times and fields in range.
-/
import Timespan.Calendar.Validity

namespace Timespan.Calendar

theorem isLeap_iff (y : Int) : isLeap y = true ↔ y % 4 = 0 ∧ (y % 100 ≠ 0 ∨ y % 400 = 0) := by
  simp [isLeap]

theorem leapDay_range (leap : Bool) : 0 ≤ leapDay leap ∧ leapDay leap ≤ 1 := by
  cases leap <;> decide

/-! ## Years -/

theorem daysBeforeYear_succ (y : Int) :
    daysBeforeYear (y + 1) = daysBeforeYear y + 365 + leapDay (isLeap y) := by
  have h := isLeap_iff y
  unfold daysBeforeYear leapDay
  split <;> rename_i hl
  · have := h.mp hl; omega
  · have := mt h.mpr hl; omega

theorem daysBeforeYear_mono {x y : Int} (h : x ≤ y) : daysBeforeYear x ≤ daysBeforeYear y := by
  unfold daysBeforeYear; omega

theorem yearOf_spec (n : Int) :
    daysBeforeYear (yearOf n) ≤ n ∧ n < daysBeforeYear (yearOf n + 1) := by
  unfold yearOf
  simp only
  split
  · rename_i h
    refine ⟨?_, by simpa using h⟩
    unfold daysBeforeYear; omega
  · split
    · rename_i h
      refine ⟨h, ?_⟩
      unfold daysBeforeYear; omega
    · omega

theorem yearOf_eq {n y : Int} (h1 : daysBeforeYear y ≤ n) (h2 : n < daysBeforeYear (y + 1)) :
    yearOf n = y := by
  have hs := yearOf_spec n
  have key : ∀ a b : Int, daysBeforeYear a ≤ n → n < daysBeforeYear (b + 1) → a ≤ b := by
    intro a b ha hb
    by_cases hab : a ≤ b
    · exact hab
    · have := daysBeforeYear_mono (show b + 1 ≤ a by omega)
      omega
  have := key _ _ hs.1 h2
  have := key _ _ h1 hs.2
  omega

/-! ## Months -/

theorem monthOf_range (leap : Bool) {n : Int} (h : n < 365 + leapDay leap) :
    1 ≤ monthOf leap n ∧ monthOf leap n ≤ 12 := by
  have := leapDay_range leap
  unfold monthOf
  split
  · omega
  · split <;> omega

theorem monthOf_spec (leap : Bool) {n : Int} (h0 : 0 ≤ n) :
    daysBeforeMonth leap (monthOf leap n) ≤ n ∧ n < daysBeforeMonth leap (monthOf leap n + 1) := by
  have := leapDay_range leap
  unfold monthOf daysBeforeMonth
  split
  · omega
  · split
    · omega
    · rw [if_neg (by omega), if_neg (by omega)]; omega

theorem daysBeforeMonth_mono (leap : Bool) {m k : Int} (h : m ≤ k) :
    daysBeforeMonth leap m ≤ daysBeforeMonth leap k := by
  have := leapDay_range leap
  unfold daysBeforeMonth
  split <;> split <;> omega

theorem monthOf_eq {leap : Bool} {n m : Int} (h0 : 0 ≤ n) (h1 : daysBeforeMonth leap m ≤ n)
    (h2 : n < daysBeforeMonth leap (m + 1)) : monthOf leap n = m := by
  have hs := monthOf_spec leap h0
  have key : ∀ a b : Int, daysBeforeMonth leap a ≤ n → n < daysBeforeMonth leap (b + 1) → a ≤ b := by
    intro a b ha hb
    by_cases hab : a ≤ b
    · exact hab
    · have := daysBeforeMonth_mono leap (show b + 1 ≤ a by omega)
      omega
  have := key _ _ hs.1 h2
  have := key _ _ h1 hs.2
  omega

theorem daysBeforeMonth_nonneg (leap : Bool) {m : Int} (h : 1 ≤ m) : 0 ≤ daysBeforeMonth leap m := by
  have := daysBeforeMonth_mono leap h
  simpa [daysBeforeMonth] using this

@[simp] theorem daysBeforeMonth_thirteen (leap : Bool) :
    daysBeforeMonth leap 13 = 365 + leapDay leap := by
  simp [daysBeforeMonth]; omega

/-! ## Dates -/

/-- A date with a month and a day that its year has. -/
structure Date.Valid (d : Date) : Prop where
  month : 1 ≤ d.month ∧ d.month ≤ 12
  day : 1 ≤ d.day ∧ d.day ≤ monthLength d.year d.month

@[simp] theorem Date.dayNumber_ofDayNumber (n : Int) : (Date.ofDayNumber n).dayNumber = n := by
  unfold Date.dayNumber Date.ofDayNumber monthStart
  simp only
  omega

theorem Date.valid_ofDayNumber (n : Int) : (Date.ofDayNumber n).Valid := by
  have hy := yearOf_spec (n + epochDay)
  rw [daysBeforeYear_succ] at hy
  have hr := monthOf_range (isLeap (yearOf (n + epochDay)))
    (show n + epochDay - daysBeforeYear (yearOf (n + epochDay)) < _ by omega)
  have hm := monthOf_spec (isLeap (yearOf (n + epochDay)))
    (show 0 ≤ n + epochDay - daysBeforeYear (yearOf (n + epochDay)) by omega)
  refine ⟨hr, ?_⟩
  unfold Date.ofDayNumber monthLength
  simp only
  omega

theorem Date.ofDayNumber_dayNumber {d : Date} (h : d.Valid) : Date.ofDayNumber d.dayNumber = d := by
  obtain ⟨year, month, day⟩ := d
  obtain ⟨hm, hd⟩ := h
  simp only [monthLength] at hm hd
  have h0 := daysBeforeMonth_nonneg (isLeap year) hm.1
  have h13 := daysBeforeMonth_mono (isLeap year) (show month + 1 ≤ 13 by omega)
  rw [daysBeforeMonth_thirteen] at h13
  have hy : yearOf (Date.dayNumber ⟨year, month, day⟩ + epochDay) = year := by
    apply yearOf_eq
    · unfold Date.dayNumber monthStart; simp only; omega
    · rw [daysBeforeYear_succ]; unfold Date.dayNumber monthStart; simp only; omega
  have hmo : monthOf (isLeap year)
      (Date.dayNumber ⟨year, month, day⟩ + epochDay - daysBeforeYear year) = month := by
    apply monthOf_eq <;> unfold Date.dayNumber monthStart <;> simp only <;> omega
  unfold Date.ofDayNumber
  simp only [hy, hmo]
  unfold Date.dayNumber monthStart
  simp only [Date.mk.injEq, true_and]
  omega

theorem Date.dayNumber_lt_succ_year {d : Date} (h : d.Valid) :
    monthStart d.year 1 ≤ d.dayNumber ∧ d.dayNumber < monthStart (d.year + 1) 1 := by
  have h0 := daysBeforeMonth_nonneg (isLeap d.year) h.month.1
  have h13 := daysBeforeMonth_mono (isLeap d.year) (show d.month + 1 ≤ 13 by have := h.month; omega)
  rw [daysBeforeMonth_thirteen] at h13
  have hd := h.day
  simp only [monthLength] at hd
  simp only [Date.dayNumber, monthStart, daysBeforeYear_succ]
  have h1 : ∀ leap, daysBeforeMonth leap 1 = 0 := fun _ => rfl
  rw [h1, h1]
  omega

/-! ## Wall times -/

/-- Fields in range. -/
structure Fields.Valid (v : Fields) : Prop where
  date : (Date.mk v.year v.month v.day).Valid
  hour : 0 ≤ v.hour ∧ v.hour ≤ 23
  minute : 0 ≤ v.minute ∧ v.minute ≤ 59
  second : 0 ≤ v.second ∧ v.second ≤ 59
  milli : 0 ≤ v.milli ∧ v.milli ≤ 999

namespace Fields

theorem carriedYear_eq {v : Fields} (h : 1 ≤ v.month ∧ v.month ≤ 12) : v.carriedYear = v.year := by
  unfold carriedYear; omega

theorem carriedMonth_eq {v : Fields} (h : 1 ≤ v.month ∧ v.month ≤ 12) :
    v.carriedMonth = v.month := by
  unfold carriedMonth; omega

/-- Fields whose month is in range denote their date and the milliseconds after it. -/
theorem rolled_eq {v : Fields} (h : 1 ≤ v.month ∧ v.month ≤ 12) :
    v.rolled = (Date.mk v.year v.month v.day).dayNumber * dayMillis + v.hour * hourMillis +
      v.minute * minuteMillis + v.second * secondMillis + v.milli := by
  unfold rolled millisInMonth Date.dayNumber
  rw [carriedYear_eq h, carriedMonth_eq h]
  simp only [dayMillis]
  omega

theorem valid_ofWall (w : Int) : (ofWall w).Valid := by
  have hd := Date.valid_ofDayNumber (w / dayMillis)
  refine ⟨hd, ?_, ?_, ?_, ?_⟩ <;>
    simp only [ofWall, dayMillis, hourMillis, minuteMillis, secondMillis] <;> omega

@[simp] theorem rolled_ofWall (w : Int) : (ofWall w).rolled = w := by
  rw [rolled_eq (valid_ofWall w).date.month]
  have hn := Date.dayNumber_ofDayNumber (w / dayMillis)
  simp only [ofWall] at hn ⊢
  rw [hn]
  simp only [dayMillis, hourMillis, minuteMillis, secondMillis]
  omega

theorem ofWall_rolled {v : Fields} (h : v.Valid) : ofWall v.rolled = v := by
  have hr := rolled_eq h.date.month
  obtain ⟨hd, h1, h2, h3, h4⟩ := h
  simp only [dayMillis, hourMillis, minuteMillis, secondMillis] at hr
  have hq : v.rolled / dayMillis = (Date.mk v.year v.month v.day).dayNumber := by
    simp only [dayMillis]; omega
  obtain ⟨year, month, day, hour, minute, second, milli⟩ := v
  simp only [ofWall, hq, Date.ofDayNumber_dayNumber hd, mk.injEq, true_and]
  simp only [dayMillis, hourMillis, minuteMillis, secondMillis] at hr h1 h2 h3 h4 ⊢
  omega

end Fields

end Timespan.Calendar
