/-
  Timestamps without an offset, read by the clock of the host, against the calendar fields that they
  are the text of. Text is searched for where it stands, while fields of a year above 9599 are
  brought back by way of the date 400 years before. In a zone whose offsets repeat by then both come
  to the same instant, in gaps and overlaps too (`readInstant_naive`), however near to each other
  the changes of the clocks are; what is left of the detour is that fields name an instant also on
  the last days of the calendar, where the search for the text can leave it.
-/
import Timespan.Proofs.Clock.Detour
import Timespan.Proofs.Timestamp.RoundTrip

namespace Timespan

open Timespan.Calendar Timespan.Text

namespace WallClock

variable {c : WallClock} {z : Zone} {v : Fields} {t : Int}

/-- Fields in range up to the year 9599 are searched for at their own wall time. -/
theorem instantOf_eq_ok_iff_instantOfWall? (hz : c.zone = .ok z) (hv : v.Canonical)
    (hyear : v.year ≤ 9599) : c.instantOf v = .ok t ↔ c.instantOfWall? v.rolled = some t := by
  have hlate : ¬ v.year > 9599 := by omega
  rw [instantOf_eq_ok_iff hz, cycleBack_of_le hyear, and_iff_right (covers_of_canonical hv)]
  simp only [if_neg hlate, exists_eq_right']

/-- The instant of their own wall time, if it is found, is the one that fields in range name. -/
theorem instantOf_of_instantOfWall? (hz : c.zone = .ok z) (hb : z.Bounded) (hc : z.Cyclic)
    (hv : v.Canonical) (h : c.instantOfWall? v.rolled = some t) : c.instantOf v = .ok t := by
  by_cases hyear : v.year ≤ 9599
  · exact (instantOf_eq_ok_iff_instantOfWall? hz hv hyear).mpr h
  · obtain ⟨s, hs⟩ := exists_instantOf_lastCycle hz hb hv (by omega)
    rw [hs, instantOf_eq_direct hz hb hc hs hv.le_rolled_of_year, eq_direct_of_instantOfWall? h]

end WallClock

variable {host : Zone} {v : Fields} {t : Int}

/-- The text of fields without an offset is searched for by the host at their wall time. -/
theorem readInstant_isoText_naive (host : Zone) (hv : v.Canonical) :
    readInstant host (isoText v) =
      (host.searchInstant v.rolled).mapError InstantFault.ofSearch := by
  have hfurther : ∀ c ∈ ([] : List Char), c.isDigit = true := by simp
  have hoffset : ∀ offset ∈ (none : Option Int), -86400 < offset ∧ offset < 86400 := by simp
  rw [isoText_eq, Timestamp.Style.extended.readInstant_eq host hv hfurther hoffset]

theorem readInstant_isoText_naive_eq_ok_iff (hv : v.Canonical) :
    readInstant host (isoText v) = .ok t ↔
      (WallClock.host host).instantOfWall? v.rolled = some t := by
  rw [readInstant_isoText_naive host hv, mapError_eq_ok_iff, WallClock.instantOfWall?,
    toOption_eq_some_iff]

/-- The clock of the host reads a text as it reads the fields of the text. If the text is read, the
    fields name the same instant; up to the year 9599 each is read if the other is. Above it fields
    in range always name an instant, and a text is read up to three days before the end of the
    calendar. -/
theorem readInstant_naive (hb : host.Bounded) (hc : host.Cyclic) (hv : v.Canonical) :
    (∀ t, readInstant host (isoText v) = .ok t → (WallClock.host host).instantOf v = .ok t) ∧
    (v.year ≤ 9599 →
      ∀ t, readInstant host (isoText v) = .ok t ↔ (WallClock.host host).instantOf v = .ok t) ∧
    (9600 ≤ v.year → (∃ t, (WallClock.host host).instantOf v = .ok t) ∧
      (v.rolled + 3 * dayMillis ≤ lastWall → ∃ t, readInstant host (isoText v) = .ok t)) := by
  refine ⟨fun t h => ?_, fun hyear t => ?_, fun hyear => ⟨?_, fun hend => ?_⟩⟩
  · rw [readInstant_isoText_naive_eq_ok_iff hv] at h
    exact WallClock.instantOf_of_instantOfWall? rfl hb hc hv h
  · rw [readInstant_isoText_naive_eq_ok_iff hv,
      WallClock.instantOf_eq_ok_iff_instantOfWall? rfl hv hyear]
  · exact WallClock.exists_instantOf_lastCycle rfl hb hv hyear
  · have hstart : firstWall + 3 * dayMillis ≤ monthStart 9600 1 * dayMillis := by decide
    have hlate := hv.le_rolled_of_year (show 9599 < v.year by omega)
    obtain ⟨t, ht⟩ := WallClock.exists_instantOfWall?_host hb (Int.le_trans hstart hlate) hend
    exact ⟨t, (readInstant_isoText_naive_eq_ok_iff hv).mpr ht⟩

/-- Half past two of the night in which eastern summer time starts, half past one of the night in
    which it ends, and the last evening of the calendar, which only the fields name. -/
theorem readInstant_naive_eastern :
    readInstant Zone.eastern "2021-03-14T02:30:00.000".toList = .ok 1615703400000 ∧
    (WallClock.host Zone.eastern).instantOf ⟨2021, 3, 14, 2, 30, 0, 0⟩ = .ok 1615703400000 ∧
    readInstant Zone.eastern "2021-11-07T01:30:00.000".toList = .ok 1636263000000 ∧
    (WallClock.host Zone.eastern).instantOf ⟨2021, 11, 7, 1, 30, 0, 0⟩ = .ok 1636263000000 ∧
    readInstant Zone.eastern "9999-12-31T20:00:00.000".toList = .error .outsideCalendar ∧
    ∃ t, (WallClock.host Zone.eastern).instantOf ⟨9999, 12, 31, 20, 0, 0, 0⟩ = .ok t := by
  have hcanonical : ∀ v ∈ [Fields.mk 2021 3 14 2 30 0 0, ⟨2021, 11, 7, 1, 30, 0, 0⟩,
      ⟨9999, 12, 31, 20, 0, 0, 0⟩], v.Canonical := by
    intro v hv
    rw [Fields.canonical_iff]
    revert v
    decide
  have hgap : readInstant Zone.eastern "2021-03-14T02:30:00.000".toList = .ok 1615703400000 := by
    decide +kernel
  have hoverlap : readInstant Zone.eastern "2021-11-07T01:30:00.000".toList =
      .ok 1636263000000 := by
    decide +kernel
  have hend : readInstant Zone.eastern "9999-12-31T20:00:00.000".toList =
      .error .outsideCalendar := by
    decide +kernel
  have hall := fun v hv =>
    readInstant_naive Zone.eastern_regular.bounded Zone.eastern_cyclic (hcanonical v hv)
  refine ⟨hgap, ?_, hoverlap, ?_, hend, ?_⟩
  · exact (hall _ (by simp)).1 _ hgap
  · exact (hall _ (by simp)).1 _ hoverlap
  · exact ((hall _ (by simp)).2.2 (by decide)).1

end Timespan
