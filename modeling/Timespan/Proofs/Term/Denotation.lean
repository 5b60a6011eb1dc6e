/-
  What a literal denotes in UTC: the instants that show it. The fields of any instant, cut to a
  grain and written out, are a literal whose range holds just the instants with the same fields
  down to that grain, up to the last second of the year 9999 (`resolve_write_ofFields`).
-/
import Timespan.Proofs.Calendar.Unit
import Timespan.Proofs.Clock.Utc
import Timespan.Proofs.Term.Read

namespace Timespan

open Timespan.Calendar

/-! ## Units on the clock of UTC -/

namespace WallClock

variable {v : Fields} (h : v.Canonical) (g : Grain)
include h

/-- The stop of a unit can be brought back, even at the end of the calendar. -/
theorem covers_unit_stop : Covers ((v.floor g).add g 1) := by
  have hlt := Fields.lt_floor_add h.valid g
  have hin := (Fields.inCalendar_rolled_iff h.valid).mpr h.year
  rw [inCalendar, Bool.and_eq_true, decide_eq_true_eq] at hin
  have hday := h.valid.day_le
  have hyear := h.year
  obtain ⟨⟨⟨hmonth, hday'⟩, _, _, _, _⟩, -⟩ := h
  simp only at hmonth hday'
  refine covers_of_near ⟨?_, ?_, ?_, ?_⟩ (by omega) <;> cases g <;>
    simp only [Fields.floor, Fields.add, Fields.months, Fields.millisInMonth, dayMillis, hourMillis,
      minuteMillis, secondMillis] <;>
    omega

theorem interval_unit : utc.interval (v.floor g) g 1 =
    .ok ⟨(v.floor g).rolled, ((v.floor g).add g 1).rolled⟩ := by
  have hstart := instantOf_utc_eq_ok_iff.mpr
    ⟨covers_of_canonical (Fields.canonical_floor h g), rfl⟩
  have hstop := instantOf_utc_eq_ok_iff.mpr ⟨covers_unit_stop h g, rfl⟩
  exact interval_eq_ok_iff.mpr ⟨hstart, hstop⟩

end WallClock

/-! ## Literals of fields -/

def DatePart.ofFields (v : Fields) : Grain → DatePart
  | .year => .year v.year.toNat
  | .month => .month v.year.toNat v.month.toNat
  | _ => .day v.year.toNat v.month.toNat v.day.toNat

def TimePart.ofFields? (v : Fields) : Grain → Option TimePart
  | .year | .month | .day => none
  | .hour => some (.hour v.hour.toNat)
  | .minute => some (.minute v.hour.toNat v.minute.toNat)
  | .second | .milli => some (.second v.hour.toNat v.minute.toNat v.second.toNat)

namespace Literal

/-- The literal that gives the fields down to a grain, seconds at the finest. -/
def ofFields (v : Fields) (g : Grain) : Literal :=
  ⟨some (DatePart.ofFields v g), TimePart.ofFields? v g⟩

/-- The same without the date. -/
def timeOfFields (v : Fields) (g : Grain) : Literal := ⟨none, TimePart.ofFields? v g⟩

variable {v : Fields} {g : Grain}

theorem fits_ofFields (h : v.Canonical) (g : Grain) : (ofFields v g).Fits := by
  have hday := h.valid.day_le
  obtain ⟨⟨⟨hm, hd⟩, hh, hmi, hs, -⟩, hy⟩ := h
  simp only at hm hd
  constructor
  · rintro d ⟨⟩
    cases g <;> simp only [DatePart.ofFields, DatePart.Fits] <;> omega
  · intro t ht
    cases g <;> cases ht <;> simp only [TimePart.Fits] <;> omega

theorem fits_timeOfFields (h : v.Canonical) (g : Grain) : (timeOfFields v g).Fits :=
  ⟨fun _ hd => (Option.some_ne_none _ hd.symm).elim, (fits_ofFields h g).time⟩

theorem grain?_ofFields (hg : g ≠ .milli) : (ofFields v g).grain? = some g := by
  cases g <;> first | rfl | exact absurd rfl hg

theorem grain?_timeOfFields (hg : g ≠ .milli) (hh : Grain.hour.index ≤ g.index) :
    (timeOfFields v g).grain? = some g := by
  cases g <;> first | rfl | exact absurd rfl hg | exact absurd hh (by decide)

/-- A literal with a date starts at the fields that it gives, whatever the clock shows. -/
theorem complete_ofFields (h : v.Canonical) (hg : g ≠ .milli) (now : Fields) :
    (ofFields v g).complete now = v.floor g := by
  obtain ⟨⟨⟨hm, hd⟩, hh, hmi, hs, -⟩, hy⟩ := h
  simp only at hm hd
  cases g <;> first
    | exact absurd rfl hg
    | simp only [ofFields, DatePart.ofFields, TimePart.ofFields?, complete, DatePart.fill,
        TimePart.fill, Fields.floor, Fields.mk.injEq, and_true]
      omega

/-- A literal without a date takes that of the clock. -/
theorem complete_timeOfFields (h : v.Canonical) (hg : g ≠ .milli)
    (hhour : Grain.hour.index ≤ g.index) : (timeOfFields v g).complete v = v.floor g := by
  obtain ⟨⟨-, hh, hmi, hs, -⟩, -⟩ := h
  cases g <;> first
    | exact absurd rfl hg
    | exact absurd hhour (by decide)
    | simp only [timeOfFields, TimePart.ofFields?, complete, TimePart.fill, Fields.floor,
        Fields.mk.injEq, and_true, true_and]
      omega

end Literal

/-! ## Ranges of literals -/

namespace Term

open WallClock

variable {t origin : Int} {v now : Fields} {g : Grain}

/-- A written literal that completes to a unit has the range of that unit. -/
theorem resolve_write {l : Literal} (hl : l.Fits) (hgrain : l.grain? = some g)
    (hv : v.Canonical) (hnow : utc.fieldsAt origin = .ok now)
    (hstart : l.complete now = v.floor g) :
    resolve utc origin l.write =
      .ok (.interval ⟨(v.floor g).rolled, ((v.floor g).add g 1).rolled⟩) := by
  have hfault : (v.floor g).fault? = none :=
    (Fields.canonical_iff.mp (Fields.canonical_floor hv g)).1
  rw [resolve_eq, form_write hl (by rw [hgrain]; rfl)]
  refine map_eq_ok_iff.mpr ⟨_, Literal.resolve_eq_ok_iff.mpr ⟨now, g, hnow, hgrain, ?_, ?_⟩, rfl⟩
  · rw [hstart, hfault]
  · rw [hstart, interval_unit hv]

/-- The fields of an instant, written out down to a grain, denote the instants that show the same
    fields down to that grain, whatever the clock shows. So does their time of day alone on a clock
    that shows the instant. -/
theorem resolve_write_ofFields (ht : utc.fieldsAt t = .ok v)
    (ho : utc.fieldsAt origin = .ok now) (hg : g ≠ .milli) :
    ∃ i, resolve utc origin (Literal.ofFields v g).write = .ok (.interval i) ∧
      (∀ u w, utc.fieldsAt u = .ok w →
        (i.start ≤ u ∧ u < i.stop ↔ ∀ k : Grain, k.index ≤ g.index → w.get k = v.get k)) ∧
      (Grain.hour.index ≤ g.index →
        resolve utc t (Literal.timeOfFields v g).write = .ok (.interval i)) := by
  have hv := canonical_of_fieldsAt ht
  refine ⟨⟨(v.floor g).rolled, ((v.floor g).add g 1).rolled⟩, ?_, ?_, ?_⟩
  · exact resolve_write (Literal.fits_ofFields hv g) (Literal.grain?_ofFields hg) hv ho
      (Literal.complete_ofFields hv hg now)
  · intro u w hw
    obtain ⟨-, rfl⟩ := fieldsAt_utc_eq_ok_iff.mp hw
    have hunit := Fields.mem_unit_iff hv.valid (Fields.valid_ofWall u) g
    rwa [Fields.rolled_ofWall] at hunit
  · intro hhour
    exact resolve_write (Literal.fits_timeOfFields hv g) (Literal.grain?_timeOfFields hg hhour) hv
      ht (Literal.complete_timeOfFields hv hg hhour)

/-- The last second of the calendar, with and without its date. -/
theorem resolve_write_last_second :
    (Literal.ofFields ⟨9999, 12, 31, 23, 59, 59, 999⟩ .second).write =
        "9999-12-31 23:59:59".toList ∧
      ∃ i, resolve utc 0 (Literal.ofFields ⟨9999, 12, 31, 23, 59, 59, 999⟩ .second).write =
          .ok (.interval i) ∧
        (i.start ≤ 253402300799000 ∧ 253402300799000 < i.stop) ∧
        resolve utc 253402300799999
            (Literal.timeOfFields ⟨9999, 12, 31, 23, 59, 59, 999⟩ .second).write =
          .ok (.interval i) := by
  refine ⟨by decide, ?_⟩
  have ht : utc.fieldsAt 253402300799999 = .ok ⟨9999, 12, 31, 23, 59, 59, 999⟩ := by
    decide +kernel
  have ho : utc.fieldsAt 0 = .ok ⟨1970, 1, 1, 0, 0, 0, 0⟩ := by decide +kernel
  have hw : utc.fieldsAt 253402300799000 = .ok ⟨9999, 12, 31, 23, 59, 59, 0⟩ := by decide +kernel
  obtain ⟨i, hi, hmem, htime⟩ := resolve_write_ofFields (g := .second) ht ho (by decide)
  refine ⟨i, hi, (hmem _ _ hw).mpr ?_, htime (by decide)⟩
  intro k
  cases k <;> decide

end Term

end Timespan
