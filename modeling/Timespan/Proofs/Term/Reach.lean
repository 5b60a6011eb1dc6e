/-
  How far the keywords reach in UTC. A period counted to resolves to its wall times unless it begins
  before the calendar (`periodInterval_utc_iff`). After the calendar only weeks and quarters fail,
  because the way to their start leads over a date of the period, which has to lie in the calendar.
  So a keyword fails on the dates of a table (`Keyword.OutOfReach`), and always as out of range.
-/
import Timespan.Proofs.Term.Overlong
import Timespan.Proofs.Term.Period

namespace Timespan

open Timespan.Calendar

/-- The date comes before another, by year, month and day. -/
def Calendar.Date.Before (d e : Date) : Prop :=
  d.year < e.year ∨ d.year = e.year ∧ (d.month < e.month ∨ d.month = e.month ∧ d.day < e.day)

theorem Calendar.Date.before_iff {d e : Date} (hd : d.Valid) (he : e.Valid) :
    d.Before e ↔ d.dayNumber < e.dayNumber := (dayNumber_lt_iff hd he).symm

/-! ## Failures -/

theorem Fault.kind_of_fieldsOutOfRange {v : Fields} {cause : Rejection}
    (h : fieldsOutOfRange v = .rejected cause) : cause.kind = .outOfRange := by
  rw [fieldsOutOfRange] at h
  split at h
  · cases h
    rfl
  · cases h

theorem Fault.kind_of_instantOutOfRange {t : Int} {cause : Rejection}
    (h : instantOutOfRange t = .rejected cause) : cause.kind = .outOfRange := by
  rw [instantOutOfRange] at h
  split at h
  · cases h
    rfl
  · cases h

namespace WallClock

variable {c : WallClock} {z : Zone} {cause : Rejection}

theorem kind_of_fieldsAt_rejected {t : Int} (hz : c.zone = .ok z)
    (h : c.fieldsAt t = .error (.rejected cause)) : cause.kind = .outOfRange := by
  simp only [fieldsAt, hz, ok_bind] at h
  split at h
  · cases h
  · exact Fault.kind_of_instantOutOfRange (Except.error.inj h)

theorem kind_of_instantOf_rejected {v : Fields} (hz : c.zone = .ok z)
    (h : c.instantOf v = .error (.rejected cause)) : cause.kind = .outOfRange := by
  simp only [instantOf, hz, ok_bind] at h
  split at h
  · cases h
  · exact Fault.kind_of_fieldsOutOfRange (Except.error.inj h)

end WallClock

/-! ## The periods of the calendar -/

namespace Period

variable {p : Period} {v s : Fields} {k n : Int}

/-- The wall times of the `n`th period. -/
def cell (p : Period) (n : Int) : Interval := ⟨p.begins n, p.begins (n + 1)⟩

/-- The number of the first period that begins in the calendar. Its first day is a Monday. -/
def first : Period → Int
  | .day => -719162
  | .week => -102736
  | .month => 12
  | .quarter => 4
  | .year => 1

/-- The number of the first period that begins after the calendar. -/
def past : Period → Int
  | .day => 2932897
  | .week => 418986
  | .month => 120000
  | .quarter => 40000
  | .year => 10000

theorem le_begins_iff {w m : Int} (hm : p.begins (m - 1) < w ∧ w ≤ p.begins m) :
    w ≤ p.begins n ↔ m ≤ n := by
  constructor
  · intro h
    apply Int.le_of_not_gt
    intro hlt
    have := p.begins_mono (show n ≤ m - 1 by omega)
    omega
  · intro h
    have := p.begins_mono h
    omega

theorem firstWall_le_begins_iff : firstWall ≤ p.begins n ↔ p.first ≤ n :=
  le_begins_iff (by cases p <;> decide)

theorem lastWall_lt_begins_iff : lastWall < p.begins n ↔ p.past ≤ n :=
  le_begins_iff (by cases p <;> decide)

theorem inCalendar_begins_iff : inCalendar (p.begins n) = true ↔ p.first ≤ n ∧ n < p.past := by
  rw [inCalendar, Bool.and_eq_true, decide_eq_true_eq, decide_eq_true_eq,
    ← Int.not_lt (a := lastWall), firstWall_le_begins_iff, lastWall_lt_begins_iff, Int.not_le]

/-! ## The start of a period -/

theorem near_truncate_day (h : v.Canonical) (hn : -13 ≤ n ∧ n ≤ 14) :
    WallClock.Near (v.truncate .day n) := by
  have hyear := h.year
  have hmonth : 1 ≤ v.month ∧ v.month ≤ 12 := h.valid.date.month
  have hday : 1 ≤ v.day := h.valid.date.day.1
  have hday' := h.valid.day_le
  constructor <;>
    simp only [Fields.truncate, Fields.floor, Fields.add, Fields.months, Fields.millisInMonth,
      dayMillis, hourMillis, minuteMillis, secondMillis] <;>
    omega

theorem near_firstOfMonth {year month : Int} (hyear : year ≤ 10001)
    (hmonth : -11 ≤ month ∧ month ≤ 24) (hmonths : 12 ≤ year * 12 + (month - 1)) :
    WallClock.Near ⟨year, month, 1, 0, 0, 0, 0⟩ := by
  refine ⟨hyear, hmonth, hmonths, ?_⟩
  simp only [Fields.millisInMonth, dayMillis, hourMillis, minuteMillis, secondMillis]
  omega

theorem near_firstOfQuarter (hn : 4 ≤ n ∧ n ≤ 40000) :
    WallClock.Near (Fields.firstOfQuarter n) ∧
      WallClock.Near ((Fields.firstOfQuarter n).add .month 3) := by
  simp only [Fields.firstOfQuarter, Fields.add]
  exact ⟨near_firstOfMonth (by omega) (by omega) (by omega),
    near_firstOfMonth (by omega) (by omega) (by omega)⟩

/-- Weeks and quarters are brought to their start from fields that have to lie in the calendar, and
    those moved by `k` periods lie after its end. -/
def Beyond (p : Period) (v : Fields) (k : Int) : Prop :=
  (p = .week ∨ p = .quarter) ∧ lastWall < (v.truncate p.grain (k * p.length)).rolled

theorem beyond_iff (h : v.Valid) :
    p.Beyond v k ↔ p = .week ∧ day.past ≤ v.date.dayNumber + k * 7 ∨
      p = .quarter ∧ month.past ≤ v.months + k * 3 := by
  cases p with
  | week => simp [Beyond, grain, length, rolled_truncate_day h, lastWall_lt_begins_iff, number]
  | quarter => simp [Beyond, grain, length, rolled_truncate_month, lastWall_lt_begins_iff, number]
  | day | month | year => simp [Beyond]

/-- The periods of fields in the calendar stop after its start and begin before its end. -/
theorem number_range (p : Period) (h : v.Canonical) :
    p.first ≤ p.number v + 1 ∧ p.number v < p.past := by
  have hmem := p.rolled_mem h.valid
  have hin := (Fields.inCalendar_rolled_iff h.valid).mpr h.year
  rw [inCalendar, Bool.and_eq_true, decide_eq_true_eq, decide_eq_true_eq] at hin
  rw [← firstWall_le_begins_iff, ← Int.not_le, ← lastWall_lt_begins_iff]
  omega

/-- Going back leads nowhere beyond the end. -/
theorem not_beyond_of_nonpos (h : v.Canonical) (hk : k ≤ 0) : ¬ p.Beyond v k := by
  have hday := (day.number_range h).2
  have hmonth := (month.number_range h).2
  simp only [number] at hday hmonth
  rw [beyond_iff h.valid]
  omega

theorem exists_weekStart? (h : v.Canonical)
    (hin : inCalendar (v.truncate .day (k * 7)).rolled = true) :
    ∃ s, (v.truncate .day (k * 7)).weekStart? = some s := by
  have hcarried : (v.truncate .day (k * 7)).carriedYear = v.year :=
    Fields.carriedYear_eq h.valid.date.month
  have hwall := Fields.wall?_eq_some_iff.mpr ⟨hcarried ▸ h.year, hin, rfl⟩
  exact ⟨_, Fields.weekStart?_eq hwall⟩

theorem exists_quarterStart? (hin : inCalendar (v.truncate .month (k * 3)).rolled = true) :
    ∃ s, (v.truncate .month (k * 3)).quarterStart? = some s := by
  have hmonths := hin
  rw [rolled_truncate_month, inCalendar_begins_iff] at hmonths
  simp only [first, past, number, Fields.months] at hmonths
  have hcarried : 1 ≤ (v.truncate .month (k * 3)).carriedYear ∧
      (v.truncate .month (k * 3)).carriedYear ≤ 9999 := by
    simp only [Fields.truncate, Fields.floor, Fields.add, Fields.carriedYear]
    omega
  exact ⟨_, Fields.quarterStart?_eq (Fields.wall?_eq_some_iff.mpr ⟨hcarried, hin, rfl⟩)⟩

theorem exists_start?_week (h : v.Canonical) (hk : -1 ≤ k ∧ k ≤ 1)
    (hfirst : week.first ≤ week.number v + k) (hlast : ¬ week.Beyond v k) :
    ∃ s, week.start? (v.truncate .day (k * 7)) = some s ∧ WallClock.Near s ∧
      WallClock.Near (s.add .day 7) := by
  have hbefore : ¬ lastWall < (v.truncate .day (k * 7)).rolled :=
    fun hlt => hlast ⟨Or.inl rfl, hlt⟩
  rw [rolled_truncate_day h.valid, lastWall_lt_begins_iff] at hbefore
  simp only [first, past, number] at hfirst hbefore
  have hin : inCalendar (v.truncate .day (k * 7)).rolled = true := by
    rw [rolled_truncate_day h.valid, inCalendar_begins_iff]
    simp only [first, past, number]
    omega
  obtain ⟨s, hs⟩ := exists_weekStart? h hin
  have hweekday : 0 ≤ weekday (day.number v + k * 7) ∧ weekday (day.number v + k * 7) ≤ 6 := by
    simp only [weekday]
    omega
  refine ⟨s, hs, ?_⟩
  rw [weekStart?_truncate h.valid hs, Fields.truncate_add]
  exact ⟨near_truncate_day h (by omega), near_truncate_day h (by omega)⟩

theorem exists_start?_quarter (hfirst : quarter.first ≤ quarter.number v + k)
    (hlast : ¬ quarter.Beyond v k) :
    ∃ s, quarter.start? (v.truncate .month (k * 3)) = some s ∧ WallClock.Near s ∧
      WallClock.Near (s.add .month 3) := by
  have hbefore : ¬ lastWall < (v.truncate .month (k * 3)).rolled :=
    fun hlt => hlast ⟨Or.inr rfl, hlt⟩
  rw [rolled_truncate_month, lastWall_lt_begins_iff] at hbefore
  simp only [first, past, number] at hfirst hbefore
  have hin : inCalendar (v.truncate .month (k * 3)).rolled = true := by
    rw [rolled_truncate_month, inCalendar_begins_iff]
    simp only [first, past, number]
    omega
  obtain ⟨s, hs⟩ := exists_quarterStart? hin
  refine ⟨s, hs, ?_⟩
  rw [quarterStart?_truncate hs, number]
  exact near_firstOfQuarter (by omega)

/-- The start of a neighbouring period that does not begin before the calendar is found, unless the
    way to it leads beyond the end. Both it and the stop lie near the calendar. -/
theorem exists_start? (p : Period) (h : v.Canonical) (hk : -1 ≤ k ∧ k ≤ 1)
    (hfirst : p.first ≤ p.number v + k) (hlast : ¬ p.Beyond v k) :
    ∃ s, p.start? (v.truncate p.grain (k * p.length)) = some s ∧ WallClock.Near s ∧
      WallClock.Near (s.add p.grain p.length) := by
  have hyear := h.year
  have hmonth : 1 ≤ v.month ∧ v.month ≤ 12 := h.valid.date.month
  cases p with
  | day =>
    refine ⟨_, rfl, ?_⟩
    rw [grain, length, Fields.truncate_add]
    exact ⟨near_truncate_day h (by omega), near_truncate_day h (by omega)⟩
  | month | year =>
    refine ⟨_, rfl, ?_⟩
    simp only [first, number, Fields.months] at hfirst
    simp only [grain, length, Fields.truncate, Fields.floor, Fields.add]
    exact ⟨near_firstOfMonth (by omega) (by omega) (by omega),
      near_firstOfMonth (by omega) (by omega) (by omega)⟩
  | week => exact exists_start?_week h hk hfirst hlast
  | quarter => exact exists_start?_quarter hfirst hlast

/-- A start that is found was not looked for beyond the end of the calendar. -/
theorem not_beyond_of_start? (hs : p.start? (v.truncate p.grain (k * p.length)) = some s) :
    ¬ p.Beyond v k := by
  rintro ⟨rfl | rfl, hlt⟩ <;>
  · obtain ⟨w, hw, -⟩ := Option.map_eq_some_iff.mp hs
    obtain ⟨-, hin, rfl⟩ := Fields.wall?_eq_some_iff.mp hw
    simp only [inCalendar, Bool.and_eq_true, decide_eq_true_eq] at hin
    exact absurd hlt (Int.not_lt.mpr hin.2)

end Period

namespace Keyword

open WallClock

variable {t : Int} {r : Relation} {p : Period} {i : Interval}

/-- In UTC the range of a keyword is the period that it counts to. -/
theorem eq_cell_of_periodInterval_utc (h : periodInterval utc t r p = .ok i) :
    inCalendar t = true ∧ firstWall ≤ i.start ∧
      i = p.cell (p.number (Fields.ofWall t) + r.sign) := by
  obtain ⟨now, s, hnow, hs, hi⟩ := periodInterval_eq_ok_iff.mp h
  obtain ⟨hin, rfl⟩ := fieldsAt_utc_eq_ok_iff.mp hnow
  obtain ⟨hstart, hstop⟩ :=
    Period.starts_of_start? (Fields.valid_ofWall t) (Period.start_eq_ok_iff.mp hs)
  obtain ⟨h1, h2⟩ := interval_eq_ok_iff.mp hi
  obtain ⟨hcovers, h1⟩ := instantOf_utc_eq_ok_iff.mp h1
  obtain ⟨-, h2⟩ := instantOf_utc_eq_ok_iff.mp h2
  refine ⟨hin, h1 ▸ firstWall_le_of_covers hcovers, ?_⟩
  rw [Period.cell, ← hstart, ← hstop, h1, h2]

/-- In UTC a period resolves unless it begins before the calendar or the way to it leads beyond the
    end. -/
theorem periodInterval_utc_iff :
    periodInterval utc t r p = .ok i ↔
      inCalendar t = true ∧ firstWall ≤ i.start ∧ ¬ p.Beyond (Fields.ofWall t) r.sign ∧
        i = p.cell (p.number (Fields.ofWall t) + r.sign) := by
  constructor
  · intro h
    obtain ⟨hin, hfirst, hcell⟩ := eq_cell_of_periodInterval_utc h
    obtain ⟨now, s, hnow, hs, -⟩ := periodInterval_eq_ok_iff.mp h
    obtain ⟨-, rfl⟩ := fieldsAt_utc_eq_ok_iff.mp hnow
    exact ⟨hin, hfirst, Period.not_beyond_of_start? (Period.start_eq_ok_iff.mp hs), hcell⟩
  · rintro ⟨hin, hfirst, hbeyond, rfl⟩
    have hv := canonical_ofWall hin
    have hsign : -1 ≤ r.sign ∧ r.sign ≤ 1 := by cases r <;> decide
    obtain ⟨s, hs, hnear, hnear'⟩ :=
      p.exists_start? hv hsign (Period.firstWall_le_begins_iff.mp hfirst) hbeyond
    obtain ⟨hstart, hstop⟩ := Period.starts_of_start? hv.valid hs
    have hlater := p.begins_lt (Int.lt_succ (p.number (Fields.ofWall t) + r.sign))
    have hcovers := covers_of_near hnear (hstart ▸ hfirst)
    have hcovers' := covers_of_near hnear'
      (hstop ▸ Int.le_trans hfirst (Int.le_of_lt hlater))
    exact periodInterval_eq_ok_iff.mpr ⟨_, s, fieldsAt_utc_eq_ok_iff.mpr ⟨hin, rfl⟩,
      Period.start_eq_ok_iff.mpr hs, interval_eq_ok_iff.mpr
        ⟨instantOf_utc_eq_ok_iff.mpr ⟨hcovers, hstart⟩,
          instantOf_utc_eq_ok_iff.mpr ⟨hcovers', hstop⟩⟩⟩

/-- A calendar range that cannot be found on a clock that can be read is out of range. -/
theorem kind_of_periodInterval_rejected {c : WallClock} {z : Zone} {cause : Rejection}
    (hz : c.zone = .ok z) (h : periodInterval c t r p = .error (.rejected cause)) :
    cause.kind = .outOfRange := by
  rcases periodInterval_eq_error_iff.mp h with h | ⟨v, -, h | ⟨s, -, h⟩⟩
  · exact kind_of_fieldsAt_rejected hz h
  · rw [Period.start] at h
    split at h
    · cases h
    · exact Fault.kind_of_fieldsOutOfRange (Except.error.inj h)
  · rcases interval_eq_error_iff.mp h with h | ⟨-, h⟩
    · exact kind_of_instantOf_rejected hz h
    · exact kind_of_instantOf_rejected hz h

/-! ## The dates on which a keyword fails -/

/-- The dates from which the calendar does not reach the period that a keyword counts to. -/
def OutOfReach : Relation → Period → Date → Prop
  | .last, .day, d => d = ⟨1, 1, 1⟩
  | .this, .week, d => d.Before ⟨1, 1, 7⟩
  | .last, .week, d => d.Before ⟨1, 1, 14⟩
  | .next, .week, d => ¬ d.Before ⟨9999, 12, 25⟩
  | .last, .month, d => d.year = 1 ∧ d.month = 1
  | .last, .quarter, d => d.year = 1 ∧ d.month ≤ 3
  | .next, .quarter, d => ¬ d.Before ⟨9999, 10, 1⟩
  | .last, .year, d => d.year = 1
  | _, _, _ => False

/-- They are those of periods that begin before the calendar, and those from which the way to a week
    or a quarter leads beyond its end. -/
theorem outOfReach_iff {v : Fields} (h : v.Canonical) (r : Relation) (p : Period) :
    OutOfReach r p v.date ↔ p.number v + r.sign < p.first ∨ p.Beyond v r.sign := by
  have hyear := h.year
  have hmonth : 1 ≤ v.month ∧ v.month ≤ 12 := h.valid.date.month
  have hday : 1 ≤ v.day := h.valid.date.day.1
  have hbefore : ∀ e : Date, e.Valid → ∀ n, e.dayNumber = n →
      (v.date.Before e ↔ v.date.dayNumber < n) := by
    rintro e he n rfl
    exact Date.before_iff h.valid.date he
  -- the first Sundays are the 7th and the 14th, and a week after 25 December 9999 the year is over
  have hfirst := hbefore ⟨1, 1, 1⟩ ⟨by decide, by decide⟩ (-719162) (by decide)
  have hsecond := hbefore ⟨1, 1, 2⟩ ⟨by decide, by decide⟩ (-719161) (by decide)
  have hsunday := hbefore ⟨1, 1, 7⟩ ⟨by decide, by decide⟩ (-719156) (by decide)
  have hsunday' := hbefore ⟨1, 1, 14⟩ ⟨by decide, by decide⟩ (-719149) (by decide)
  have hend := hbefore ⟨9999, 12, 25⟩ ⟨by decide, by decide⟩ 2932890 (by decide)
  have hpast := hbefore ⟨10000, 1, 1⟩ ⟨by decide, by decide⟩ 2932897 (by decide)
  rw [Period.beyond_iff h.valid]
  simp only [Date.Before, Fields.date] at hfirst hsecond hsunday hsunday' hend hpast
  cases r <;> cases p <;>
    simp only [OutOfReach, Date.Before, Fields.date, Fields.months, Date.mk.injEq, Period.number,
      Period.first, Period.past, Relation.sign, reduceCtorEq, false_and, true_and, false_or,
      or_false, false_iff] <;>
    omega

/-- In UTC a keyword resolves to its period at every instant of the calendar but those of the dates
    out of reach, where it is out of range. The last and the present period fail just when they
    begin before the calendar. The next one never does, and only weeks and quarters fail. -/
theorem resolveWord_utc_iff_not_outOfReach {v : Fields} (ht : utc.fieldsAt t = .ok v) (r : Relation)
    (p : Period) :
    (resolveWord utc t (Keyword.period r p).name.toList =
        .ok (.interval (p.cell (p.number v + r.sign))) ↔ ¬ OutOfReach r p v.date) ∧
    (OutOfReach r p v.date → ∃ cause,
      resolveWord utc t (Keyword.period r p).name.toList = .error (.rejected cause) ∧
        cause.kind = .outOfRange) ∧
    (r ≠ .next → (OutOfReach r p v.date ↔ p.begins (p.number v + r.sign) < firstWall)) ∧
    (r = .next → firstWall ≤ p.begins (p.number v + r.sign) ∧
      (OutOfReach r p v.date → p = .week ∨ p = .quarter)) := by
  obtain ⟨hin, rfl⟩ := fieldsAt_utc_eq_ok_iff.mp ht
  have hv := canonical_ofWall hin
  have hfirst : firstWall ≤ p.begins (p.number (Fields.ofWall t) + r.sign) ↔ _ :=
    Period.firstWall_le_begins_iff
  have hreach := outOfReach_iff hv r p
  have hok : ∀ i, periodInterval utc t r p = .ok i ↔
      ¬ OutOfReach r p (Fields.ofWall t).date ∧
        i = p.cell (p.number (Fields.ofWall t) + r.sign) := by
    intro i
    rw [periodInterval_utc_iff, hreach, not_or, Int.not_lt, ← hfirst, and_assoc]
    constructor
    · rintro ⟨-, hstart, hbeyond, rfl⟩
      exact ⟨hstart, hbeyond, rfl⟩
    · rintro ⟨hstart, hbeyond, rfl⟩
      exact ⟨hin, hstart, hbeyond, rfl⟩
  rw [Term.resolveWord_name]
  refine ⟨?_, fun hout => ?_, fun hr => ?_, ?_⟩
  · rw [map_eq_ok_iff]
    constructor
    · rintro ⟨i, hi, -⟩
      exact ((hok i).mp hi).1
    · intro hreached
      exact ⟨_, (hok _).mpr ⟨hreached, rfl⟩, rfl⟩
  · cases h : periodInterval utc t r p with
    | ok i => exact absurd hout ((hok i).mp h).1
    | error e =>
      cases e with
      | overlongNumeral =>
        have hwritable := (periodInterval_eq_overlongNumeral_iff.mp h).2
        rw [Text.writable_of_inCalendar hin] at hwritable
        cases hwritable
      | rejected cause => exact ⟨cause, rfl, kind_of_periodInterval_rejected rfl h⟩
  · have hsign : r.sign ≤ 0 := by
      cases r with
      | next => exact absurd rfl hr
      | last | this => decide
    rw [hreach, or_iff_left (Period.not_beyond_of_nonpos hv hsign), ← Int.not_le, ← hfirst,
      Int.not_le]
  · rintro rfl
    have hnext := (p.number_range hv).1
    refine ⟨hfirst.mpr hnext, fun hout => ?_⟩
    exact ((hreach.mp hout).resolve_left (Int.not_lt.mpr hnext)).1

/-- The week of the first Sunday is reached from it and not from the millisecond before, and the
    week over the end of the calendar from the last millisecond of 24 December and not from the
    next. -/
theorem resolveWord_utc_first_and_last_week :
    (∃ cause, resolveWord utc (-62135078400001) "thisweek".toList = .error (.rejected cause) ∧
      cause.kind = .outOfRange) ∧
    resolveWord utc (-62135078400000) "thisweek".toList =
      .ok (.interval ⟨-62135078400000, -62134473600000⟩) ∧
    resolveWord utc 253401695999999 "nextweek".toList =
      .ok (.interval ⟨253401782400000, 253402387200000⟩) ∧
    ∃ cause, resolveWord utc 253401696000000 "nextweek".toList = .error (.rejected cause) ∧
      cause.kind = .outOfRange := by
  have hsaturday : utc.fieldsAt (-62135078400001) = .ok ⟨1, 1, 6, 23, 59, 59, 999⟩ := by
    decide +kernel
  have hsunday : utc.fieldsAt (-62135078400000) = .ok ⟨1, 1, 7, 0, 0, 0, 0⟩ := by decide +kernel
  have heve : utc.fieldsAt 253401695999999 = .ok ⟨9999, 12, 24, 23, 59, 59, 999⟩ := by
    decide +kernel
  have hlate : utc.fieldsAt 253401696000000 = .ok ⟨9999, 12, 25, 0, 0, 0, 0⟩ := by decide +kernel
  refine ⟨?_, ?_, ?_, ?_⟩
  · refine (resolveWord_utc_iff_not_outOfReach hsaturday .this .week).2.1 ?_
    simp [OutOfReach, Fields.date, Date.Before]
  · refine (resolveWord_utc_iff_not_outOfReach hsunday .this .week).1.mpr ?_
    simp [OutOfReach, Fields.date, Date.Before]
  · refine (resolveWord_utc_iff_not_outOfReach heve .next .week).1.mpr ?_
    simp [OutOfReach, Fields.date, Date.Before]
  · refine (resolveWord_utc_iff_not_outOfReach hlate .next .week).2.1 ?_
    simp [OutOfReach, Fields.date, Date.Before]

end Keyword

end Timespan
