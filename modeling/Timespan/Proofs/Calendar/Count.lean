/-
  Days counted out. The calendar reckons by closed formulas; here the same numbers come from the
  lengths of single months, by which any calendar on a wall goes. The first of a month is reached
  from January 1970 by counting months one after another, forwards or backwards
  (`monthsStart_eq_countedStart`), and adding months to fields passes over just the days of these
  months, whatever the day and the time of the fields (`Fields.rolled_add_month`).
-/
import Timespan.Proofs.Calendar.Width
import Mathlib.Tactic.IntervalCases

namespace Timespan.Calendar

/-- Thirty days have April, June, September and November; February has 28, in leap years 29. -/
def daysInMonth (year month : Int) : Int :=
  if month = 2 then (if isLeap year then 29 else 28)
  else if month = 4 ∨ month = 6 ∨ month = 9 ∨ month = 11 then 30
  else 31

theorem monthLength_eq_daysInMonth (year : Int) {month : Int} (h : 1 ≤ month ∧ month ≤ 12) :
    monthLength year month = daysInMonth year month := by
  obtain ⟨hfirst, hlast⟩ := h
  unfold monthLength daysInMonth
  generalize isLeap year = leap
  interval_cases month <;> cases leap <;> rfl

/-- The days of `n` months from the `k`th on, where months are counted from January of year 0. -/
def daysFrom (k : Int) (n : Nat) : Int :=
  ((List.range n).map fun j : Nat => daysInMonth ((k + j) / 12) ((k + j) % 12 + 1)).sum

theorem daysFrom_succ (k : Int) (n : Nat) :
    daysFrom k (n + 1) = daysFrom k n + daysInMonth ((k + n) / 12) ((k + n) % 12 + 1) := by
  unfold daysFrom
  rw [List.range_succ, List.map_append, List.sum_append]
  simp

theorem monthsStart_add_nat (k : Int) (n : Nat) :
    monthsStart (k + n) = monthsStart k + daysFrom k n := by
  induction n with
  | zero => simp [daysFrom]
  | succ n ih =>
    have hlength := monthLength_eq_daysInMonth ((k + n) / 12)
      (show 1 ≤ (k + n) % 12 + 1 ∧ (k + n) % 12 + 1 ≤ 12 by omega)
    rw [show k + ((n + 1 : Nat) : Int) = k + n + 1 by omega, monthsStart_succ, ih, hlength,
      daysFrom_succ]
    omega

/-- The days passed over by going on `n` months from the `k`th. Going back passes over the months
    before it, and their days are counted negative. -/
def daysAcross (k : Int) : Int → Int
  | .ofNat n => daysFrom k n
  | .negSucc n => -daysFrom (k - (n + 1)) (n + 1)

theorem monthsStart_add (k n : Int) : monthsStart (k + n) = monthsStart k + daysAcross k n := by
  cases n with
  | ofNat n => exact monthsStart_add_nat k n
  | negSucc n =>
    have h := monthsStart_add_nat (k - (n + 1)) (n + 1)
    rw [show k - (n + 1) + ((n + 1 : Nat) : Int) = k by omega] at h
    rw [daysAcross, show k + Int.negSucc n = k - (n + 1) by omega]
    omega

/-- The number of the first day of the `k`th month, counted out from January 1970. -/
def countedStart (k : Int) : Int := daysAcross (1970 * 12) (k - 1970 * 12)

theorem monthsStart_eq_countedStart (k : Int) : monthsStart k = countedStart k := by
  have hepoch : monthsStart (1970 * 12) = 0 := by decide
  have h := monthsStart_add (1970 * 12) (k - 1970 * 12)
  rw [show (1970 * 12 : Int) + (k - 1970 * 12) = k by omega, hepoch, Int.zero_add] at h
  exact h

/-- Adding months passes over their days. -/
theorem Fields.rolled_add_month (v : Fields) (n : Int) :
    (v.add .month n).rolled = v.rolled + daysAcross v.months n * dayMillis := by
  have hmonths : (v.add .month n).months = v.months + n := by
    simp only [months, add]
    omega
  have hrest : (v.add .month n).millisInMonth = v.millisInMonth := rfl
  rw [rolled_eq_months, rolled_eq_months, hmonths, hrest, monthsStart_add]
  unfold dayMillis
  omega

end Timespan.Calendar
