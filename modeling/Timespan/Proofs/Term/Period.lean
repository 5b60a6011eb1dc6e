/-
  The periods of the calendar. Days, weeks, months, quarters and years each cut the wall times into
  pieces that follow one another without end (`number_eq_iff`). A keyword starts with the piece that
  it counts to from the one in which the clock lies, and stops where the next piece begins
  (`starts_of_start?`), although week and quarter come by their starts on ways of their own.
-/
import Timespan.Proofs.Calendar.Quarter
import Timespan.Proofs.Calendar.Week
import Timespan.Term.Keyword

namespace Timespan

open Timespan.Calendar

namespace Calendar

namespace Fields

variable {v : Fields}

/-- Fields in range lie between the first days of the months around them. -/
theorem rolled_mem_months (h : v.Valid) {a b : Int} (ha : a ≤ v.months) (hb : v.months < b) :
    monthsStart a * dayMillis ≤ v.rolled ∧ v.rolled < monthsStart b * dayMillis := by
  have hmem := rolled_mem_month h
  have := monthsStart_mono ha
  have := monthsStart_mono (show v.months + 1 ≤ b by omega)
  simp only [dayMillis] at hmem ⊢
  omega

/-- Moved fields can be moved on. -/
@[simp] theorem truncate_add (v : Fields) (g : Grain) (n m : Int) :
    (v.truncate g n).add g m = v.truncate g (n + m) := by
  cases g <;> simp only [truncate, add, Int.add_assoc]

end Fields

end Calendar

namespace Period

variable {p : Period} {v s : Fields} {k n : Int}

/-- The wall time at which the `n`th period begins. Day 0 is a Thursday, four days after a Sunday;
    months, quarters and years are counted from January of year 0. -/
def begins : Period → Int → Int
  | .day, n => n * dayMillis
  | .week, n => (7 * n - 4) * dayMillis
  | .month, n => monthsStart n * dayMillis
  | .quarter, n => monthsStart (3 * n) * dayMillis
  | .year, n => monthsStart (12 * n) * dayMillis

/-- The number of the period in which fields lie. -/
def number : Period → Fields → Int
  | .day, v => v.date.dayNumber
  | .week, v => (v.date.dayNumber + 4) / 7
  | .month, v => v.months
  | .quarter, v => v.months / 3
  | .year, v => v.year

theorem begins_lt {m : Int} (p : Period) (h : n < m) : p.begins n < p.begins m := by
  cases p with
  | day | week => simp only [begins, dayMillis]; omega
  | month =>
    have := monthsStart_lt h
    simp only [begins, dayMillis]
    omega
  | quarter =>
    have := monthsStart_lt (show 3 * n < 3 * m by omega)
    simp only [begins, dayMillis]
    omega
  | year =>
    have := monthsStart_lt (show 12 * n < 12 * m by omega)
    simp only [begins, dayMillis]
    omega

theorem begins_mono {m : Int} (p : Period) (h : n ≤ m) : p.begins n ≤ p.begins m := by
  rcases Int.lt_or_eq_of_le h with h | rfl
  · exact Int.le_of_lt (p.begins_lt h)
  · exact Int.le_refl _

/-- Fields in range lie in the period of their number. -/
theorem rolled_mem (p : Period) (h : v.Valid) :
    p.begins (p.number v) ≤ v.rolled ∧ v.rolled < p.begins (p.number v + 1) := by
  have hmonth : 1 ≤ v.month ∧ v.month ≤ 12 := h.date.month
  cases p with
  | day | week =>
    have hday := Fields.rolled_eq_date h
    obtain ⟨-, _, _, _, _⟩ := h
    simp only [begins, number, dayMillis]
    omega
  | month | quarter | year =>
    apply Fields.rolled_mem_months h <;> simp only [number, Fields.months] <;> omega

theorem number_eq_iff (p : Period) (h : v.Valid) :
    p.number v = n ↔ p.begins n ≤ v.rolled ∧ v.rolled < p.begins (n + 1) := by
  have hmem := p.rolled_mem h
  constructor
  · rintro rfl
    exact hmem
  · intro hn
    rcases Int.lt_trichotomy (p.number v) n with hlt | heq | hlt
    · have := p.begins_mono (show p.number v + 1 ≤ n by omega)
      omega
    · exact heq
    · have := p.begins_mono (show n + 1 ≤ p.number v by omega)
      omega

@[simp] theorem number_begins (p : Period) (n : Int) :
    p.number (Fields.ofWall (p.begins n)) = n := by
  rw [number_eq_iff p (Fields.valid_ofWall _), Fields.rolled_ofWall]
  exact ⟨Int.le_refl _, p.begins_lt (by omega)⟩

/-- The millisecond before a period lies in the one before. -/
@[simp] theorem number_before_begins (p : Period) (n : Int) :
    p.number (Fields.ofWall (p.begins n - 1)) = n - 1 := by
  have hlt := p.begins_lt (show n - 1 < n by omega)
  rw [number_eq_iff p (Fields.valid_ofWall _), Fields.rolled_ofWall, Int.sub_add_cancel]
  omega

theorem rolled_truncate_day (h : v.Valid) (n : Int) :
    (v.truncate .day n).rolled = day.begins (day.number v + n) := by
  have hday := Fields.rolled_eq_date (Fields.valid_floor h .day)
  rw [Fields.truncate, Fields.rolled_add_of_millis? _ (m := dayMillis) rfl, hday]
  simp only [Fields.floor, Fields.date, begins, number, dayMillis]
  omega

theorem rolled_truncate_month (v : Fields) (n : Int) :
    (v.truncate .month n).rolled = month.begins (month.number v + n) := by
  rw [Fields.truncate, Fields.floor, Fields.add, Fields.rolled_firstOfMonth]
  simp only [begins, number, Fields.months]
  congr 2
  omega

theorem rolled_truncate_year (v : Fields) (n : Int) :
    (v.truncate .year n).rolled = year.begins (year.number v + n) := by
  rw [Fields.truncate, Fields.floor, Fields.add, Fields.rolled_firstOfMonth]
  simp only [begins, number]
  congr 2
  omega

/-! ## What a keyword starts -/

theorem start_eq_ok_iff : p.start v = .ok s ↔ p.start? v = some s := by
  rw [Period.start]
  cases p.start? v <;> simp

/-- The fields denote the beginning of the `n`th period, and with its length added that of the one
    after it. -/
structure Starts (p : Period) (s : Fields) (n : Int) : Prop where
  start : s.rolled = p.begins n
  stop : (s.add p.grain p.length).rolled = p.begins (n + 1)

/-- Weeks are moved by seven days each and then brought back to their Sunday. -/
theorem weekStart?_truncate (h : v.Valid)
    (hs : (v.truncate .day (k * 7)).weekStart? = some s) :
    s = v.truncate .day (k * 7 + -weekday (day.number v + k * 7)) := by
  obtain ⟨w, hw, -⟩ := Option.map_eq_some_iff.mp hs
  obtain ⟨-, -, hrolled⟩ := Fields.wall?_eq_some_iff.mp hw
  have hday : w / dayMillis = day.number v + k * 7 := by
    rw [← hrolled, rolled_truncate_day h, begins, Int.mul_ediv_cancel _ (by decide)]
  rw [Fields.weekStart?_eq hw, Fields.weekday_ofWall, hday, Fields.truncate_add] at hs
  exact (Option.some.inj hs).symm

theorem starts_week (h : v.Valid) (hs : (v.truncate .day (k * 7)).weekStart? = some s) :
    week.Starts s (week.number v + k) := by
  rw [weekStart?_truncate h hs]
  constructor
  · rw [rolled_truncate_day h]
    simp only [begins, number, weekday, dayMillis]
    omega
  · rw [grain, length, Fields.truncate_add, rolled_truncate_day h]
    simp only [begins, number, weekday, dayMillis]
    omega

/-- Quarters are moved by three months each and then brought back to their first. -/
theorem quarterStart?_truncate (hs : (v.truncate .month (k * 3)).quarterStart? = some s) :
    s = Fields.firstOfQuarter (quarter.number v + k) := by
  obtain ⟨w, hw, -⟩ := Option.map_eq_some_iff.mp hs
  have hnumber : (v.truncate .month (k * 3)).months / 3 = quarter.number v + k := by
    simp only [Fields.truncate, Fields.floor, Fields.add, Fields.months, number]
    omega
  rw [(Fields.quarterStart?_firstOfMonth rfl hw).2, hnumber] at hs
  exact (Option.some.inj hs).symm

theorem starts_quarter (hs : (v.truncate .month (k * 3)).quarterStart? = some s) :
    quarter.Starts s (quarter.number v + k) := by
  rw [quarterStart?_truncate hs]
  exact ⟨Fields.rolled_firstOfQuarter _, Fields.rolled_firstOfQuarter_add _⟩

/-- The fields from which a keyword starts begin the period that it counts to. -/
theorem starts_of_start? (h : v.Valid)
    (hs : p.start? (v.truncate p.grain (k * p.length)) = some s) :
    p.Starts s (p.number v + k) := by
  have hlast : p.number v + k + 1 = p.number v + (k + 1) := Int.add_assoc _ _ _
  cases p with
  | week => exact starts_week h hs
  | quarter => exact starts_quarter hs
  | day =>
    rw [length, Int.mul_one] at hs
    cases hs
    refine ⟨rolled_truncate_day h k, ?_⟩
    rw [grain, Fields.truncate_add, rolled_truncate_day h, length, hlast]
  | month =>
    rw [length, Int.mul_one] at hs
    cases hs
    refine ⟨rolled_truncate_month v k, ?_⟩
    rw [grain, Fields.truncate_add, rolled_truncate_month, length, hlast]
  | year =>
    rw [length, Int.mul_one] at hs
    cases hs
    refine ⟨rolled_truncate_year v k, ?_⟩
    rw [grain, Fields.truncate_add, rolled_truncate_year, length, hlast]

end Period

end Timespan
