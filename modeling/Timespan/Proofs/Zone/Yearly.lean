/-
  Zones with a yearly rule. Where summer time lies within the year, the clocks are changed at its
  start and at its stop and at no other second (`Temperate.turns`), so such a zone is regular, and
  quiet near the start of the calendar; and since dates and weekdays repeat every 400 years, so do
  its offsets.
-/
import Timespan.Proofs.Calendar.Order
import Timespan.Proofs.Calendar.Width
import Timespan.Proofs.Clock.Cycle
import Timespan.Proofs.Zone.Readings
import Timespan.Zone.Posix

namespace Timespan.Zone

open Timespan.Calendar

/-! ## The date of a change -/

/-- A change falls in its month. -/
theorem Changeover.dayIn_range {c : Changeover} (hmonth : 1 ≤ c.month ∧ c.month ≤ 12)
    (hweek : 1 ≤ c.week ∧ c.week ≤ 5) (year : Int) :
    monthStart year c.month ≤ c.dayIn year ∧
      c.dayIn year < monthStart year c.month + monthLength year c.month := by
  have := monthLength_range year hmonth
  simp only [dayIn]
  split <;> omega

@[simp] theorem Changeover.dayIn_add_cycle (c : Changeover) (year : Int) :
    c.dayIn (year + 400) = c.dayIn year + 146097 := by
  have hstart : monthStart (year + 400) c.month = monthStart year c.month + 146097 := by
    have := monthStart_sub_cycle (year + 400) c.month
    rw [show year + 400 - 400 = year by omega] at this
    omega
  have hlength : monthLength (year + 400) c.month = monthLength year c.month := by
    have := isLeap_sub_cycle (year + 400)
    rw [show year + 400 - 400 = year by omega] at this
    simp only [monthLength, ← this]
  have hweekday : Calendar.weekday (monthStart year c.month + 146097) =
      Calendar.weekday (monthStart year c.month) := by
    simp only [Calendar.weekday]
    omega
  simp only [dayIn, hstart, hlength, hweekday]
  split <;> omega

/-! ## The year of a second -/

def yearAt (u : Int) : Int := (Date.ofDayNumber (u / 86400)).year

theorem yearAt_eq_iff {u year : Int} :
    yearAt u = year ↔ monthStart year 1 * 86400 ≤ u ∧ u < monthStart (year + 1) 1 * 86400 := by
  have h := Date.dayNumber_lt_succ_year (Date.valid_ofDayNumber (u / 86400))
  rw [Date.dayNumber_ofDayNumber] at h
  rw [yearAt]
  constructor
  · rintro rfl
    omega
  · intro hyear
    rcases Int.lt_trichotomy (Date.ofDayNumber (u / 86400)).year year with hlt | heq | hlt
    · have := monthStart_one_mono (show (Date.ofDayNumber (u / 86400)).year + 1 ≤ year by omega)
      omega
    · exact heq
    · have := monthStart_one_mono (show year + 1 ≤ (Date.ofDayNumber (u / 86400)).year by omega)
      omega

@[simp] theorem yearAt_add_cycle (u : Int) : yearAt (u + cycleSeconds) = yearAt u + 400 := by
  have hyear := yearAt_eq_iff.mp (show yearAt u = yearAt u from rfl)
  have hcycle := monthStart_sub_cycle (yearAt u + 400) 1
  have hcycle' := monthStart_sub_cycle (yearAt u + 1 + 400) 1
  rw [show yearAt u + 400 - 400 = yearAt u by omega] at hcycle
  rw [show yearAt u + 1 + 400 - 400 = yearAt u + 1 by omega] at hcycle'
  rw [yearAt_eq_iff, show yearAt u + 400 + 1 = yearAt u + 1 + 400 by omega]
  unfold cycleSeconds
  omega

@[simp] theorem Changeover.wallIn_add_cycle (c : Changeover) (year : Int) :
    c.wallIn (year + 400) = c.wallIn year + cycleSeconds := by
  unfold wallIn cycleSeconds
  rw [dayIn_add_cycle]
  omega

/-- Any yearly rule repeats every 400 years, in the days of the week as in the dates. -/
@[simp] theorem Rule.offsetAt_add_cycle (r : Rule) (u : Int) :
    r.offsetAt (u + cycleSeconds) = r.offsetAt u := by
  unfold Rule.offsetAt
  cases r.summer? with
  | none => rfl
  | some s =>
    have hyear : (Date.ofDayNumber ((u + cycleSeconds) / 86400)).year =
        (Date.ofDayNumber (u / 86400)).year + 400 := yearAt_add_cycle u
    simp only [hyear, Changeover.wallIn_add_cycle]
    refine if_congr ?_ rfl rfl
    split <;> split <;> omega

/-! ## Summer within the year -/

/-- The second at which summer starts in a year. -/
def Rule.startIn (r : Rule) (s : Summer) (year : Int) : Int := s.starts.wallIn year - r.standard

/-- The second at which it stops. -/
def Rule.stopIn (_ : Rule) (s : Summer) (year : Int) : Int := s.stops.wallIn year - s.offset

/-- Summer starts in February at the earliest and stops in November at the latest, two months
    later or more. -/
structure Rule.Temperate (r : Rule) (s : Summer) : Prop where
  summer : r.summer? = some s
  months : 2 ≤ s.starts.month ∧ s.starts.month + 2 ≤ s.stops.month ∧ s.stops.month ≤ 11
  weeks : (1 ≤ s.starts.week ∧ s.starts.week ≤ 5) ∧ 1 ≤ s.stops.week ∧ s.stops.week ≤ 5
  times : (0 ≤ s.starts.time ∧ s.starts.time ≤ 86400) ∧ 0 ≤ s.stops.time ∧ s.stops.time ≤ 86400
  offsets : (-86400 < r.standard ∧ r.standard < 86400) ∧ -86400 < s.offset ∧ s.offset < 86400

namespace Rule

variable {r : Rule} {s : Summer} {u : Int}

/-- Summer keeps away from both ends of the year, and its own ends from one another. -/
theorem Temperate.spread (h : r.Temperate s) (year : Int) :
    monthStart year 1 * 86400 + 259200 < r.startIn s year ∧
      r.startIn s year + 259200 < r.stopIn s year ∧
      r.stopIn s year + 259200 < monthStart (year + 1) 1 * 86400 := by
  obtain ⟨-, hmonths, hweeks, htimes, hoffsets⟩ := h
  have hstart := Changeover.dayIn_range (c := s.starts) (by omega) hweeks.1 year
  have hstop := Changeover.dayIn_range (c := s.stops) (by omega) hweeks.2 year
  have hjanuary := monthStart_succ_le year (show 1 < s.starts.month by omega)
  have hbetween := monthStart_succ_le year (show s.starts.month < s.starts.month + 1 by omega)
  have hbetween' := monthStart_succ_le year (show s.starts.month + 1 < s.stops.month by omega)
  have hdecember := monthStart_succ_le year (show s.stops.month < 12 by omega)
  have hlength := monthLength_range year (show (1 : Int) ≤ 1 ∧ (1 : Int) ≤ 12 by decide)
  have hlength' := monthLength_range year
    (show 1 ≤ s.starts.month + 1 ∧ s.starts.month + 1 ≤ 12 by omega)
  have hnewYear : monthStart (year + 1) 1 = monthStart year 12 + 31 := by
    simp only [monthStart, daysBeforeYear_succ, daysBeforeMonth]
    omega
  simp only [startIn, stopIn, Changeover.wallIn]
  omega

theorem Temperate.offsetAt_eq (h : r.Temperate s) (u : Int) :
    r.offsetAt u =
      if r.startIn s (yearAt u) ≤ u ∧ u < r.stopIn s (yearAt u) then s.offset else r.standard := by
  have hspread := h.spread (yearAt u)
  have hlt : s.starts.wallIn (yearAt u) - r.standard < s.stops.wallIn (yearAt u) - s.offset := by
    simp only [startIn, stopIn] at hspread
    omega
  simp only [Rule.offsetAt, h.summer]
  refine if_congr ?_ rfl rfl
  rw [yearAt] at hlt
  rw [if_pos hlt]
  rfl

theorem Temperate.offsetAt_eq_or (h : r.Temperate s) (u : Int) :
    r.offsetAt u = s.offset ∨ r.offsetAt u = r.standard := by
  rw [h.offsetAt_eq]
  split
  · exact Or.inl rfl
  · exact Or.inr rfl

/-- A wall time stands for an instant of summer or one of winter. -/
theorem Temperate.eq_of_wallAt (h : r.Temperate s) {t w : Int} (hw : (ofRule r).wallAt t = w) :
    t = w - 1000 * s.offset ∨ t = w - 1000 * r.standard := by
  have hoffset := h.offsetAt_eq_or (t / 1000)
  simp only [wallAt, ofRule] at hw
  omega

/-- The clocks are changed at the start and at the stop of summer only. -/
theorem Temperate.turns (h : r.Temperate s) (hu : (ofRule r).Turns u) :
    u = r.startIn s (yearAt u) ∨ u = r.stopIn s (yearAt u) := by
  have hyear := yearAt_eq_iff.mp (show yearAt u = yearAt u from rfl)
  have hspread := h.spread (yearAt u)
  by_contra hne
  apply hu
  simp only [ofRule, h.offsetAt_eq]
  rcases Int.lt_or_le (monthStart (yearAt u) 1 * 86400) u with hlater | hnewYear
  · have hsame : yearAt (u - 1) = yearAt u := yearAt_eq_iff.mpr (by omega)
    rw [hsame]
    split <;> split <;> omega
  · -- at New Year it is winter on both sides
    have hbefore := h.spread (yearAt u - 1)
    rw [show yearAt u - 1 + 1 = yearAt u by omega] at hbefore
    have hlast : yearAt (u - 1) = yearAt u - 1 := by
      rw [yearAt_eq_iff, show yearAt u - 1 + 1 = yearAt u by omega]
      omega
    rw [hlast, if_neg (by omega), if_neg (by omega)]

theorem Temperate.regular (h : r.Temperate s) : (ofRule r).Regular := by
  refine ⟨fun u => ?_, fun u v hu hv huv => ?_⟩
  · have hoffsets := h.offsets
    rcases h.offsetAt_eq_or u with hu | hu <;> simp only [ofRule, hu] <;> omega
  · have hyear := yearAt_eq_iff.mp (show yearAt u = yearAt u from rfl)
    have hyear' := yearAt_eq_iff.mp (show yearAt v = yearAt v from rfl)
    have hspread := h.spread (yearAt u)
    have hspread' := h.spread (yearAt v)
    have hu' := h.turns hu
    have hv' := h.turns hv
    rcases Int.lt_trichotomy (yearAt u) (yearAt v) with hlt | heq | hlt
    · have := monthStart_one_mono (show yearAt u + 1 ≤ yearAt v by omega)
      omega
    · rw [← heq] at hv'
      omega
    · have := monthStart_one_mono (show yearAt v + 1 ≤ yearAt u by omega)
      omega

theorem Temperate.cyclic (_ : r.Temperate s) : (ofRule r).Cyclic :=
  fun u _ => r.offsetAt_add_cycle u

theorem Temperate.quiet (h : r.Temperate s) : (ofRule r).Quiet := by
  intro u hu
  have hspread := h.spread (yearAt u)
  have hfirst : firstSecond = monthStart 1 1 * 86400 := by decide
  have hu' := h.turns hu
  rcases Int.lt_or_le (yearAt u) 1 with hbefore | hafter
  · have := monthStart_one_mono (show yearAt u + 1 ≤ 1 by omega)
    omega
  · have := monthStart_one_mono hafter
    omega

end Rule

/-! ## Zones with a single change or none -/

theorem utc_regular : utc.Regular :=
  ⟨fun _ => ⟨show (-86400 : Int) < 0 by decide, show (0 : Int) < 86400 by decide⟩,
    fun _ _ h => absurd rfl h⟩

theorem utc_cyclic : utc.Cyclic := fun _ _ => rfl

/-- The zone whose clocks are changed once, from `a` to `b`. -/
def changedOnce (turn a b : Int) : Zone := ⟨fun u => if u < turn then a else b⟩

section

variable {turn a b : Int}

theorem changedOnce_regular (ha : -86400 < a ∧ a < 86400) (hb : -86400 < b ∧ b < 86400) :
    (changedOnce turn a b).Regular := by
  refine ⟨fun u => ?_, fun u v hu hv huv => ?_⟩
  · simp only [changedOnce]
    split <;> assumption
  · simp only [Turns, changedOnce] at hu hv
    split_ifs at hu hv <;> omega

theorem changedOnce_cyclic (h : turn ≤ monthStart 9000 1 * 86400) :
    (changedOnce turn a b).Cyclic := by
  intro u hu
  simp only [changedOnce, cycleSeconds]
  rw [if_neg (by omega), if_neg (by omega)]

end

/-! ## Eastern time -/

theorem Posix.zone_eq_ofRule {text : String} {r : Rule} (h : Posix.rule? text.toList = some r) :
    Posix.zone text = ofRule r := by
  rw [Posix.zone, h]

/-- Eastern time by its present rule, carried to all years. -/
def eastern : Zone := Posix.zone "EST5EDT,M3.2.0,M11.1.0"

def easternSummer : Summer := ⟨-14400, ⟨3, 2, 0, 7200⟩, ⟨11, 1, 0, 7200⟩⟩

theorem eastern_eq : eastern = ofRule ⟨-18000, some easternSummer⟩ :=
  Posix.zone_eq_ofRule (by decide +kernel)

theorem eastern_temperate : Rule.Temperate ⟨-18000, some easternSummer⟩ easternSummer :=
  ⟨rfl, by decide, by decide, by decide, by decide⟩

theorem eastern_regular : eastern.Regular := eastern_eq ▸ eastern_temperate.regular

theorem eastern_cyclic : eastern.Cyclic := eastern_eq ▸ eastern_temperate.cyclic

end Timespan.Zone
