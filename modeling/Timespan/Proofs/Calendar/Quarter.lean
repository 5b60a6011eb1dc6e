/-
  Quarters. Fields, however far out of range, take the year and the first month of the quarter in
  which their date lies and keep their day and time (`quarterStart?_of_wall?`). So only fields that
  stand on the first of a month at midnight come to the start of a quarter, the latest one up to
  them; a day or a time out of range would be carried over a second time.
-/
import Timespan.Proofs.Clock.Utc
import Mathlib.Order.Bounds.Defs

namespace Timespan.Calendar.Fields

variable {v q : Fields} {w t : Int}

/-- Months, counted from January of year 0, begin on their first day. -/
theorem ofWall_monthsStart (k : Int) :
    ofWall (monthsStart k * dayMillis) = ⟨k / 12, k % 12 + 1, 1, 0, 0, 0, 0⟩ := by
  have hvalid := valid_firstOfMonth (k / 12) (show 1 ≤ k % 12 + 1 ∧ k % 12 + 1 ≤ 12 by omega)
  have hrolled := rolled_firstOfMonth (k / 12) (k % 12 + 1)
  rw [show k / 12 * 12 + (k % 12 + 1 - 1) = k by omega] at hrolled
  rw [← hrolled, ofWall_rolled hvalid]

/-! ## The starts of quarters -/

/-- Quarters start at midnight on the first of January, April, July and October. -/
def StartsQuarter (t : Int) : Prop :=
  ∃ year month, (month = 1 ∨ month = 4 ∨ month = 7 ∨ month = 10) ∧
    t = (Fields.mk year month 1 0 0 0 0).rolled

/-- The fields of the start of the `n`th quarter, counted from January of year 0. -/
def firstOfQuarter (n : Int) : Fields := ⟨n / 4, 3 * (n % 4) + 1, 1, 0, 0, 0, 0⟩

@[simp] theorem rolled_firstOfQuarter (n : Int) :
    (firstOfQuarter n).rolled = monthsStart (3 * n) * dayMillis := by
  rw [firstOfQuarter, rolled_firstOfMonth]
  congr 2
  omega

@[simp] theorem rolled_firstOfQuarter_add (n : Int) :
    ((firstOfQuarter n).add .month 3).rolled = monthsStart (3 * (n + 1)) * dayMillis := by
  rw [firstOfQuarter, add, rolled_firstOfMonth]
  simp only
  congr 2
  omega

theorem startsQuarter_iff : StartsQuarter t ↔ ∃ n, t = (firstOfQuarter n).rolled := by
  constructor
  · rintro ⟨year, month, hmonth, rfl⟩
    refine ⟨(year * 12 + (month - 1)) / 3, ?_⟩
    rw [rolled_firstOfQuarter, rolled_firstOfMonth]
    congr 2
    omega
  · rintro ⟨n, rfl⟩
    exact ⟨n / 4, 3 * (n % 4) + 1, by omega, rfl⟩

/-- A month lies in the quarter of its number divided by three: it has started, and the next one
    has not. -/
theorem monthsStart_mem_quarter (k : Int) :
    (firstOfQuarter (k / 3)).rolled ≤ monthsStart k * dayMillis ∧
      monthsStart k * dayMillis < ((firstOfQuarter (k / 3)).add .month 3).rolled := by
  have hle := monthsStart_mono (show 3 * (k / 3) ≤ k by omega)
  have hlt := monthsStart_lt (show k < 3 * (k / 3 + 1) by omega)
  rw [rolled_firstOfQuarter, rolled_firstOfQuarter_add]
  simp only [dayMillis]
  omega

/-- Of the starts of quarters up to a month the latest is that of the month's own quarter. -/
theorem isGreatest_startsQuarter (k : Int) :
    IsGreatest {t | StartsQuarter t ∧ t ≤ monthsStart k * dayMillis}
      (firstOfQuarter (k / 3)).rolled := by
  refine ⟨⟨startsQuarter_iff.mpr ⟨_, rfl⟩, (monthsStart_mem_quarter k).1⟩, ?_⟩
  rintro t ⟨ht, hle⟩
  obtain ⟨n, rfl⟩ := startsQuarter_iff.mp ht
  rw [rolled_firstOfQuarter] at hle ⊢
  have hn : 3 * n ≤ k := by
    apply Int.le_of_not_gt
    intro hlt
    have := monthsStart_lt hlt
    simp only [dayMillis] at hle
    omega
  have := monthsStart_mono (show 3 * n ≤ 3 * (k / 3) by omega)
  rw [rolled_firstOfQuarter]
  simp only [dayMillis]
  omega

/-! ## Coming to the start of a quarter -/

theorem quarterStart?_eq (h : v.wall? = some w) :
    v.quarterStart? = some { v with
      year := (ofWall w).year, month := ((ofWall w).month - 1) / 3 * 3 + 1 } := by
  rw [quarterStart?, h]
  rfl

/-- Year and month are those of the start of the quarter in which the date lies. -/
theorem quarterStart?_year_month (h : v.wall? = some w) (hq : v.quarterStart? = some q) :
    (1 ≤ q.year ∧ q.year ≤ 9999) ∧ (q.month = 1 ∨ q.month = 4 ∨ q.month = 7 ∨ q.month = 10) ∧
      q.year = (ofWall w).year ∧ q.month ≤ (ofWall w).month ∧ (ofWall w).month < q.month + 3 := by
  obtain ⟨-, hin, -⟩ := wall?_eq_some_iff.mp h
  have hdate := WallClock.canonical_ofWall hin
  have hmonth : 1 ≤ (ofWall w).month ∧ (ofWall w).month ≤ 12 := hdate.valid.date.month
  obtain rfl := Option.some.inj ((quarterStart?_eq h).symm.trans hq)
  refine ⟨hdate.year, ?_, rfl, ?_⟩ <;> simp only <;> omega

/-- The first of a month comes to the first of its quarter. -/
theorem quarterStart?_firstOfMonth (hv : v = ⟨v.year, v.month, 1, 0, 0, 0, 0⟩)
    (h : v.wall? = some w) :
    w = monthsStart v.months * dayMillis ∧
      v.quarterStart? = some (firstOfQuarter (v.months / 3)) := by
  have hw : w = monthsStart v.months * dayMillis := by
    obtain ⟨-, -, hrolled⟩ := wall?_eq_some_iff.mp h
    rw [← hrolled, hv, rolled_firstOfMonth, months]
  refine ⟨hw, ?_⟩
  rw [quarterStart?_eq h, hw, ofWall_monthsStart, hv, firstOfQuarter]
  simp only [months, Option.some.injEq, mk.injEq, and_true]
  omega

/-- Fields in range that stand in the first month of a quarter stay. -/
theorem quarterStart?_of_canonical (h : q.Canonical)
    (hmonth : q.month = 1 ∨ q.month = 4 ∨ q.month = 7 ∨ q.month = 10) :
    q.quarterStart? = some q := by
  have hsame : (q.month - 1) / 3 * 3 + 1 = q.month := by omega
  rw [quarterStart?_eq (wall?_of_canonical h), ofWall_rolled h.valid, hsame]

/-- Fields take year and month from the start of the quarter in which their date lies. On the first
    of a month that makes fields in range, which denote the latest start of a quarter up to them
    and stay when this is done again; with three months added they lie after them. -/
theorem quarterStart?_of_wall? (h : v.wall? = some w) :
    ∃ q, v.quarterStart? = some q ∧ q = { v with year := q.year, month := q.month } ∧
      (1 ≤ q.year ∧ q.year ≤ 9999) ∧
      (q.month = 1 ∨ q.month = 4 ∨ q.month = 7 ∨ q.month = 10) ∧
      q.year = (ofWall w).year ∧
      (q.month ≤ (ofWall w).month ∧ (ofWall w).month < q.month + 3) ∧
      (v = ⟨v.year, v.month, 1, 0, 0, 0, 0⟩ →
        q.Canonical ∧
        (∃ u, q.wall? = some u ∧ IsGreatest {t | StartsQuarter t ∧ t ≤ w} u) ∧
        w < (q.add .month 3).rolled ∧ q.quarterStart? = some q) := by
  obtain ⟨q, hq⟩ : ∃ q, v.quarterStart? = some q := ⟨_, quarterStart?_eq h⟩
  have hsame : q = { v with year := q.year, month := q.month } := by
    rw [← Option.some.inj ((quarterStart?_eq h).symm.trans hq)]
  obtain ⟨hyear, hmonth, hdate⟩ := quarterStart?_year_month h hq
  refine ⟨q, hq, hsame, hyear, hmonth, hdate.1, hdate.2, fun hv => ?_⟩
  obtain ⟨rfl, hfirst⟩ := quarterStart?_firstOfMonth hv h
  obtain rfl := Option.some.inj (hfirst.symm.trans hq)
  have hcanonical : (firstOfQuarter (v.months / 3)).Canonical :=
    ⟨valid_firstOfMonth _ (by omega), hyear⟩
  exact ⟨hcanonical, ⟨_, wall?_of_canonical hcanonical, isGreatest_startsQuarter v.months⟩,
    (monthsStart_mem_quarter v.months).2, quarterStart?_of_canonical hcanonical hmonth⟩

/-- November 2025, counted back from 2026. -/
theorem quarterStart?_of_wall?_counted_back :
    (Fields.mk 2026 (-1) 1 0 0 0 0).wall? = some 1761955200000 ∧
    (Fields.mk 2026 (-1) 1 0 0 0 0).quarterStart? = some ⟨2025, 10, 1, 0, 0, 0, 0⟩ ∧
    (Fields.mk 2025 10 1 0 0 0 0).Canonical ∧
    IsGreatest {t | StartsQuarter t ∧ t ≤ 1761955200000} 1759276800000 ∧
    1761955200000 < (Fields.mk 2025 13 1 0 0 0 0).rolled ∧
    (Fields.mk 2025 10 1 0 0 0 0).quarterStart? = some ⟨2025, 10, 1, 0, 0, 0, 0⟩ := by
  have hwall : (Fields.mk 2026 (-1) 1 0 0 0 0).wall? = some 1761955200000 := by decide
  have hstart : (Fields.mk 2026 (-1) 1 0 0 0 0).quarterStart? =
      some ⟨2025, 10, 1, 0, 0, 0, 0⟩ := by decide
  obtain ⟨q, hq, -, -, -, -, -, hfirst⟩ := quarterStart?_of_wall? hwall
  obtain rfl := Option.some.inj (hstart.symm.trans hq)
  obtain ⟨hcanonical, ⟨u, hu, hlatest⟩, hlt, hagain⟩ := hfirst rfl
  obtain rfl : u = 1759276800000 := Option.some.inj (hu.symm.trans (by decide))
  exact ⟨hwall, hstart, hcanonical, hlatest, hlt, hagain⟩

/-- A day beyond its month is kept: the 95th day of January becomes the 95th of April. -/
example : (Fields.mk 2001 1 95 0 0 0 0).quarterStart? = some ⟨2001, 4, 95, 0, 0, 0, 0⟩ := by decide

end Timespan.Calendar.Fields
