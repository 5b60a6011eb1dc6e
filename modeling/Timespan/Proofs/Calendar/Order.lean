/-
  The order of fields in range. Dates compare as their day numbers do, and fields as the wall times
  that they denote, field by field and coarsest first. The years 1 to 9999 are exactly the wall
  times of the calendar.
-/
import Timespan.Calendar.Lemmas

namespace Timespan.Calendar

/-! ## Dates -/

theorem monthStart_one_mono {x y : Int} (h : x ≤ y) : monthStart x 1 ≤ monthStart y 1 := by
  have := daysBeforeYear_mono h
  simp only [monthStart, daysBeforeMonth]
  omega

/-- The months of a year follow one another, the last one up to the next New Year. -/
theorem monthStart_succ_le (year : Int) {m k : Int} (h : m < k) :
    monthStart year m + monthLength year m ≤ monthStart year k := by
  have := daysBeforeMonth_mono (isLeap year) (show m + 1 ≤ k by omega)
  simp only [monthStart, monthLength]
  omega

namespace Date

theorem dayNumber_lt_of_year_lt {d e : Date} (hd : d.Valid) (he : e.Valid)
    (h : d.year < e.year) : d.dayNumber < e.dayNumber := by
  have h1 := (dayNumber_lt_succ_year hd).2
  have h2 := (dayNumber_lt_succ_year he).1
  have h3 := monthStart_one_mono (show d.year + 1 ≤ e.year by omega)
  omega

theorem dayNumber_lt_of_month_lt {d e : Date} (hd : d.Valid) (he : e.Valid)
    (hy : d.year = e.year) (h : d.month < e.month) : d.dayNumber < e.dayNumber := by
  have h1 := hd.day
  have h2 := he.day
  have h3 := monthStart_succ_le e.year h
  rw [hy] at h1
  simp only [dayNumber, hy]
  omega

/-- Dates that exist are ordered by year, month and day. -/
theorem dayNumber_lt_iff {d e : Date} (hd : d.Valid) (he : e.Valid) :
    d.dayNumber < e.dayNumber ↔
      d.year < e.year ∨ d.year = e.year ∧
        (d.month < e.month ∨ d.month = e.month ∧ d.day < e.day) := by
  have hsame : ∀ {x y : Date}, x.year = y.year → x.month = y.month →
      (x.dayNumber < y.dayNumber ↔ x.day < y.day) := by
    intro x y hy hm
    simp only [dayNumber, hy, hm]
    omega
  rcases Int.lt_trichotomy d.year e.year with hy | hy | hy
  · have := dayNumber_lt_of_year_lt hd he hy
    omega
  · rcases Int.lt_trichotomy d.month e.month with hm | hm | hm
    · have := dayNumber_lt_of_month_lt hd he hy hm
      omega
    · have := hsame hy hm
      omega
    · have := dayNumber_lt_of_month_lt he hd hy.symm hm
      omega
  · have := dayNumber_lt_of_year_lt he hd hy
    omega

end Date

/-! ## Fields -/

namespace Fields

/-- The date of the fields. -/
def date (v : Fields) : Date := ⟨v.year, v.month, v.day⟩

theorem rolled_eq_date {v : Fields} (h : v.Valid) :
    v.rolled = v.date.dayNumber * 86400000 + v.hour * 3600000 + v.minute * 60000 +
      v.second * 1000 + v.milli :=
  rolled_eq h.date.month

/-- Fields in range denote wall times in the order of their lists. -/
theorem rolled_lt_iff {v w : Fields} (hv : v.Valid) (hw : w.Valid) :
    v.rolled < w.rolled ↔ v.toList < w.toList := by
  have hd : v.date.dayNumber < w.date.dayNumber ↔ _ := Date.dayNumber_lt_iff hv.date hw.date
  have hd' : w.date.dayNumber < v.date.dayNumber ↔ _ := Date.dayNumber_lt_iff hw.date hv.date
  have h1 := rolled_eq_date hv
  have h2 := rolled_eq_date hw
  obtain ⟨-, _, _, _, _⟩ := hv
  obtain ⟨-, _, _, _, _⟩ := hw
  simp only [toList, List.cons_lt_cons_iff, List.not_lt_nil, and_false, or_false]
  simp only [date] at hd hd' h1 h2
  omega

theorem rolled_inj {v w : Fields} (hv : v.Valid) (hw : w.Valid) (h : v.rolled = w.rolled) :
    v = w := by
  rw [← ofWall_rolled hv, h, ofWall_rolled hw]

/-! ## The calendar -/

theorem firstWall_eq : firstWall = monthStart 1 1 * dayMillis := by decide

theorem lastWall_eq : lastWall + 1 = monthStart 10000 1 * dayMillis := by decide

theorem inCalendar_iff {w : Int} :
    inCalendar w = true ↔ monthStart 1 1 * dayMillis ≤ w ∧ w < monthStart 10000 1 * dayMillis := by
  rw [← firstWall_eq, ← lastWall_eq]
  simp only [inCalendar, Bool.and_eq_true, decide_eq_true_eq]
  omega

/-- Fields in range lie in their year. -/
theorem rolled_mem_year {v : Fields} (h : v.Valid) :
    monthStart v.year 1 * dayMillis ≤ v.rolled ∧
      v.rolled < monthStart (v.year + 1) 1 * dayMillis := by
  have hd := Date.dayNumber_lt_succ_year h.date
  have hr := rolled_eq_date h
  obtain ⟨-, _, _, _, _⟩ := h
  simp only [dayMillis, date] at hd hr ⊢
  omega

theorem inCalendar_rolled_iff {v : Fields} (h : v.Valid) :
    inCalendar v.rolled = true ↔ 1 ≤ v.year ∧ v.year ≤ 9999 := by
  have hy := rolled_mem_year h
  rw [inCalendar_iff]
  simp only [dayMillis] at hy ⊢
  rcases Int.lt_or_le v.year 1 with h1 | h1
  · have := monthStart_one_mono (show v.year + 1 ≤ 1 by omega)
    omega
  · rcases Int.lt_or_le 9999 v.year with h2 | h2
    · have := monthStart_one_mono (show 10000 ≤ v.year by omega)
      omega
    · have := monthStart_one_mono h1
      have := monthStart_one_mono (show v.year + 1 ≤ 10000 by omega)
      omega

/-- Fields denote a wall time of the calendar when their months carry into a year of it, too. -/
theorem wall?_eq_some_iff {v : Fields} {w : Int} :
    v.wall? = some w ↔
      (1 ≤ v.carriedYear ∧ v.carriedYear ≤ 9999) ∧ inCalendar w = true ∧ v.rolled = w := by
  simp only [wall?, Option.ite_none_right_eq_some, Option.some.injEq]
  constructor
  · rintro ⟨⟨hfirst, hlast, hin⟩, rfl⟩
    exact ⟨⟨hfirst, hlast⟩, hin, rfl⟩
  · rintro ⟨⟨hfirst, hlast⟩, hin, rfl⟩
    exact ⟨⟨hfirst, hlast, hin⟩, rfl⟩

/-- Fields in range in a year of the calendar. -/
structure Canonical (v : Fields) : Prop where
  valid : v.Valid
  year : 1 ≤ v.year ∧ v.year ≤ 9999

theorem wall?_of_canonical {v : Fields} (h : v.Canonical) : v.wall? = some v.rolled := by
  rw [wall?_eq_some_iff, carriedYear_eq h.valid.date.month]
  exact ⟨h.year, (inCalendar_rolled_iff h.valid).mpr h.year, rfl⟩

theorem fault?_eq_none_iff {v : Fields} :
    v.fault? = none ↔ (1 ≤ v.year ∧ v.year ≤ 9999) ∧ (1 ≤ v.month ∧ v.month ≤ 12) ∧
      (1 ≤ v.day ∧ v.day ≤ monthLength v.year v.month) ∧ (0 ≤ v.hour ∧ v.hour ≤ 23) ∧
      (0 ≤ v.minute ∧ v.minute ≤ 59) ∧ (0 ≤ v.second ∧ v.second ≤ 59) := by
  have hstep : ∀ (p : Prop) [Decidable p] (f : FieldFault) (x : Option FieldFault),
      (if ¬p then some f else x) = none ↔ p ∧ x = none := by
    intro p _ f x
    by_cases hp : p <;> simp [hp]
  rw [fault?, hstep, hstep, hstep, hstep, hstep, hstep]
  simp only [and_true]

/-- The check of a literal leaves only the milliseconds open. -/
theorem canonical_iff {v : Fields} :
    v.Canonical ↔ v.fault? = none ∧ 0 ≤ v.milli ∧ v.milli ≤ 999 := by
  rw [fault?_eq_none_iff]
  constructor
  · rintro ⟨⟨⟨hm, hd⟩, h1, h2, h3, h4⟩, hy⟩
    exact ⟨⟨hy, hm, hd, h1, h2, h3⟩, h4⟩
  · rintro ⟨⟨hy, hm, hd, h1, h2, h3⟩, h4⟩
    exact ⟨⟨⟨hm, hd⟩, h1, h2, h3, h4⟩, hy⟩

end Fields

end Timespan.Calendar
