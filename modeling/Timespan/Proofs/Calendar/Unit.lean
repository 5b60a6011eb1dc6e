/-
  The units of the calendar: years, months, days and so on down to milliseconds. A unit reaches
  from fields cut to its grain up to the start of the next unit, and the wall times in between are
  just those that show the same fields down to the grain (`mem_unit_iff`).
-/
import Timespan.Proofs.Calendar.Order
import Timespan.Proofs.Calendar.Width

namespace Timespan.Calendar

theorem monthsStart_lt {j k : Int} (h : j < k) : monthsStart j < monthsStart k := by
  obtain ⟨n, rfl⟩ : ∃ n : Nat, k = j + n := ⟨(k - j).toNat, by omega⟩
  have := monthsStart_add_range j n
  omega

theorem monthsStart_mono {j k : Int} (h : j ≤ k) : monthsStart j ≤ monthsStart k := by
  rcases Int.lt_or_eq_of_le h with h | rfl
  · exact Int.le_of_lt (monthsStart_lt h)
  · exact Int.le_refl _

namespace Fields

variable {v w : Fields}

/-- Two fields are cut to the same unit when they agree down to its grain. -/
theorem floor_eq_iff (g : Grain) :
    w.floor g = v.floor g ↔ ∀ k : Grain, k.index ≤ g.index → w.get k = v.get k := by
  constructor
  · intro h k hk
    have hget := congrArg (fun u => u.get k) h
    cases g <;> cases k <;> first | exact hget | exact absurd hk (by decide)
  · intro h
    have hget := fun (k : Grain) => h k
    have hy := hget .year
    have hm := hget .month
    have hd := hget .day
    have hh := hget .hour
    have hmi := hget .minute
    have hs := hget .second
    have hms := hget .milli
    obtain ⟨year, month, day, hour, minute, second, milli⟩ := w
    simp only [get, Grain.index] at hy hm hd hh hmi hs hms
    cases g <;> simp_all [floor, Grain.index]

/-- Cutting leaves fields in range: every month has a first day. -/
theorem valid_floor (h : v.Valid) (g : Grain) : (v.floor g).Valid := by
  have hmonth : 1 ≤ v.month ∧ v.month ≤ 12 := h.date.month
  have hday : 1 ≤ v.day ∧ v.day ≤ monthLength v.year v.month := h.date.day
  have hlength := monthLength_range v.year hmonth
  have hjanuary := monthLength_range v.year (show (1 : Int) ≤ 1 ∧ (1 : Int) ≤ 12 by decide)
  obtain ⟨-, hhour, hminute, hsecond, hmilli⟩ := h
  cases g <;> refine ⟨⟨?_, ?_⟩, ?_, ?_, ?_, ?_⟩ <;> simp only [floor] <;> omega

theorem canonical_floor (h : v.Canonical) (g : Grain) : (v.floor g).Canonical := by
  refine ⟨valid_floor h.valid g, ?_⟩
  cases g <;> exact h.year

/-! ## Years and months -/

theorem rolled_newYear (year : Int) :
    (Fields.mk year 1 1 0 0 0 0).rolled = monthStart year 1 * dayMillis := by
  have hjanuary : (1 : Int) ≤ 1 ∧ (1 : Int) ≤ 12 := by decide
  rw [rolled_eq hjanuary, Date.dayNumber]
  simp

@[simp] theorem rolled_firstOfMonth (year month : Int) :
    (Fields.mk year month 1 0 0 0 0).rolled =
      monthsStart (year * 12 + (month - 1)) * dayMillis := by
  rw [rolled_eq_months]
  simp [months, millisInMonth]

theorem valid_firstOfMonth (year : Int) {month : Int} (h : 1 ≤ month ∧ month ≤ 12) :
    (Fields.mk year month 1 0 0 0 0).Valid := by
  have := monthLength_range year h
  refine ⟨⟨h, ?_⟩, ?_, ?_, ?_, ?_⟩ <;> simp only <;> omega

theorem rolled_mem_month (h : v.Valid) :
    monthsStart v.months * dayMillis ≤ v.rolled ∧
      v.rolled < monthsStart (v.months + 1) * dayMillis := by
  have hmonth := h.date.month
  have hday := h.date.day
  have hy : v.months / 12 = v.year := carriedYear_eq hmonth
  have hm : v.months % 12 + 1 = v.month := carriedMonth_eq hmonth
  rw [monthsStart_succ, hy, hm, rolled_eq_months]
  obtain ⟨-, _, _, _, _⟩ := h
  simp only [millisInMonth, dayMillis, hourMillis, minuteMillis, secondMillis]
  simp only at hday
  omega

/-! ## The wall times of a unit -/

theorem floor_le (h : v.Valid) (g : Grain) : (v.floor g).rolled ≤ v.rolled := by
  have hy := rolled_mem_year h
  have hm := rolled_mem_month h
  have hday := h.date.day.1
  obtain ⟨-, _, _, _, _⟩ := h
  cases g with
  | year => rw [floor, rolled_newYear]; exact hy.1
  | month => rw [floor, rolled_firstOfMonth]; exact hm.1
  | _ =>
    simp only [rolled, floor, carriedYear, carriedMonth, millisInMonth, dayMillis, hourMillis,
      minuteMillis, secondMillis] at hday ⊢
    omega

theorem lt_floor_add (h : v.Valid) (g : Grain) : v.rolled < ((v.floor g).add g 1).rolled := by
  have hy := rolled_mem_year h
  have hm := rolled_mem_month h
  obtain ⟨-, _, _, _, _⟩ := h
  cases g with
  | year => rw [floor, add, rolled_newYear]; exact hy.2
  | month =>
    rw [floor, add, rolled_firstOfMonth, show v.year * 12 + (v.month + 1 - 1) = v.months + 1 by
      rw [months]; omega]
    exact hm.2
  | _ =>
    simp only [rolled, floor, add, carriedYear, carriedMonth, millisInMonth, dayMillis, hourMillis,
      minuteMillis, secondMillis]
    omega

/-- A unit stops where the next one starts, at the latest. -/
theorem floor_add_le {g : Grain} (h : (v.floor g).rolled < (w.floor g).rolled) :
    ((v.floor g).add g 1).rolled ≤ (w.floor g).rolled := by
  cases g with
  | year =>
    simp only [floor, add, rolled_newYear, dayMillis] at h ⊢
    have hlt : v.year < w.year := by
      apply Int.lt_of_not_ge
      intro hle
      have := monthStart_one_mono hle
      omega
    have := monthStart_one_mono (show v.year + 1 ≤ w.year by omega)
    omega
  | month =>
    simp only [floor, add, rolled_firstOfMonth, dayMillis] at h ⊢
    have hlt : v.year * 12 + (v.month - 1) < w.year * 12 + (w.month - 1) := by
      apply Int.lt_of_not_ge
      intro hle
      have := monthsStart_mono hle
      omega
    have := monthsStart_mono
      (show v.year * 12 + (v.month + 1 - 1) ≤ w.year * 12 + (w.month - 1) by omega)
    omega
  | _ =>
    -- both starts are whole numbers of units, so they differ by one at least
    simp only [rolled, floor, add, carriedYear, carriedMonth, millisInMonth, dayMillis, hourMillis,
      minuteMillis, secondMillis] at h ⊢
    omega

/-- The wall times of a unit are those that show the same fields down to its grain. -/
theorem mem_unit_iff (hv : v.Valid) (hw : w.Valid) (g : Grain) :
    (v.floor g).rolled ≤ w.rolled ∧ w.rolled < ((v.floor g).add g 1).rolled ↔
      ∀ k : Grain, k.index ≤ g.index → w.get k = v.get k := by
  have hle := floor_le hw g
  have hlt := lt_floor_add hw g
  rw [← floor_eq_iff]
  constructor
  · -- if the units differed, one of them would stop before the other starts
    rintro ⟨hstart, hstop⟩
    rcases Int.lt_trichotomy (w.floor g).rolled (v.floor g).rolled with h | h | h
    · have := floor_add_le h
      omega
    · exact rolled_inj (valid_floor hw g) (valid_floor hv g) h
    · have := floor_add_le h
      omega
  · intro h
    rw [← h]
    exact ⟨hle, hlt⟩

end Fields

end Timespan.Calendar
