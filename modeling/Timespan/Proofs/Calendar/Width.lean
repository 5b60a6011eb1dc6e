/-
  How far a unit of a field reaches. Days and everything below are of one length each
  (`rolled_add_of_millis?`). Months count on from one to the next, whatever the year field says;
  each has 28 to 31 days (`rolled_add_month_range`).
-/
import Timespan.Calendar.Lemmas

namespace Timespan.Calendar

/-- The length of a unit of the field, where all units have one length. -/
def Grain.millis? : Grain → Option Int
  | .year | .month => none
  | .day => some dayMillis
  | .hour => some hourMillis
  | .minute => some minuteMillis
  | .second => some secondMillis
  | .milli => some 1

theorem monthLength_range (year : Int) {month : Int} (h : 1 ≤ month ∧ month ≤ 12) :
    28 ≤ monthLength year month ∧ monthLength year month ≤ 31 := by
  have := leapDay_range (isLeap year)
  unfold monthLength daysBeforeMonth
  split <;> split <;> omega

theorem Fields.Valid.day_le {v : Fields} (h : v.Valid) : v.day ≤ 31 := by
  have := h.date.day.2
  have := (monthLength_range v.year h.date.month).2
  simp only at *
  omega

/-- The number of the first day of the `k`th month, counted from January of year 0. -/
def monthsStart (k : Int) : Int := monthStart (k / 12) (k % 12 + 1)

theorem monthsStart_succ (k : Int) :
    monthsStart (k + 1) = monthsStart k + monthLength (k / 12) (k % 12 + 1) := by
  rcases Int.lt_or_le (k % 12) 11 with h | h
  · have hy : (k + 1) / 12 = k / 12 := by omega
    have hm : (k + 1) % 12 = k % 12 + 1 := by omega
    simp only [monthsStart, hy, hm, monthStart, monthLength]
    omega
  · have hy : (k + 1) / 12 = k / 12 + 1 := by omega
    have hm : (k + 1) % 12 = 0 := by omega
    have hk : k % 12 = 11 := by omega
    have h13 := daysBeforeMonth_thirteen (isLeap (k / 12))
    simp only [monthsStart, hy, hm, hk, monthStart, monthLength, daysBeforeYear_succ]
    simp only [show (11 : Int) + 1 + 1 = 13 from rfl, h13]
    have h1 : ∀ leap, daysBeforeMonth leap (0 + 1) = 0 := fun _ => rfl
    rw [h1]
    omega

theorem monthsStart_add_range (k : Int) (n : Nat) :
    monthsStart k + 28 * n ≤ monthsStart (k + n) ∧
      monthsStart (k + n) ≤ monthsStart k + 31 * n := by
  induction n with
  | zero => simp
  | succ n ih =>
    have := monthLength_range ((k + n) / 12) (show 1 ≤ (k + n) % 12 + 1 ∧ _ by omega)
    rw [show k + ((n + 1 : Nat) : Int) = k + n + 1 by omega, monthsStart_succ]
    omega

namespace Fields

/-- The months of the fields, counted from January of year 0. -/
def months (v : Fields) : Int := v.year * 12 + (v.month - 1)

theorem rolled_eq_months (v : Fields) :
    v.rolled = monthsStart v.months * dayMillis + v.millisInMonth := rfl

/-- Units of one length move the wall time by that length each. -/
theorem rolled_add_of_millis? (v : Fields) {g : Grain} {m : Int} (h : g.millis? = some m)
    (n : Int) : (v.add g n).rolled = v.rolled + n * m := by
  cases g with
  | year => cases h
  | month => cases h
  | _ =>
    cases h
    simp only [rolled, add, carriedYear, carriedMonth, millisInMonth, dayMillis, hourMillis,
      minuteMillis, secondMillis]
    omega

/-- A month has 28 to 31 days. -/
theorem rolled_add_month_range (v : Fields) (n : Nat) :
    v.rolled + 28 * n * dayMillis ≤ (v.add .month n).rolled ∧
      (v.add .month n).rolled ≤ v.rolled + 31 * n * dayMillis := by
  have h := monthsStart_add_range v.months n
  have hm : (v.add .month n).months = v.months + n := by
    simp only [months, add]
    omega
  have hd : (v.add .month n).millisInMonth = v.millisInMonth := rfl
  rw [rolled_eq_months, rolled_eq_months, hm, hd]
  simp only [dayMillis]
  omega

/-- A year is twelve months. -/
theorem rolled_add_year (v : Fields) (n : Int) :
    (v.add .year n).rolled = (v.add .month (12 * n)).rolled := by
  have hm : (v.add .year n).months = (v.add .month (12 * n)).months := by
    simp only [months, add]
    omega
  rw [rolled_eq_months, rolled_eq_months, hm]
  rfl

end Fields

end Timespan.Calendar
