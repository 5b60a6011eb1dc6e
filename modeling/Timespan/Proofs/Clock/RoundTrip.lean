/-
  Reading fields off a clock and bringing them back. The fields that a clock shows at an instant
  come back to the earliest instant at which it shows them: the instant itself, or the one in the
  first pass of an overlap (`firstShowing_of_instantOf_zoned`). The host's clock has two limits. In
  an overlap longer than a day it comes back to the last pass where the first one lies too far back
  (`showing_of_instantOf_host`), and on the first day of the calendar, with no day before to look
  at, it does not come back at all (`exists_instantOf_host_iff_of_quiet`).
-/
import Timespan.Proofs.Calendar.Bounds
import Timespan.Proofs.Clock.Cycle
import Timespan.Proofs.Zone.Pass
import Timespan.Proofs.Zone.Yearly

namespace Timespan

open Timespan.Calendar

/-! ## Wall times in seconds and milliseconds -/

namespace Zone

variable {z : Zone} {t s : Int}

theorem wallAt_eq (z : Zone) (t : Int) : z.wallAt t = 1000 * z.localTime (t / 1000) + t % 1000 := by
  rw [wallAt, localTime]
  omega

/-- The clocks show the same at two instants just when they do at their seconds. -/
theorem wallAt_eq_iff :
    z.wallAt s = z.wallAt t ↔ z.localTime (s / 1000) = z.localTime (t / 1000) ∧ s % 1000 = t % 1000 := by
  rw [wallAt_eq, wallAt_eq]
  omega

/-- `s` is the earliest instant at which the clocks show what they show at `t`: the one in the first
    pass where `t` lies in the second pass of an overlap, else `t` itself. -/
structure FirstShowing (z : Zone) (t s : Int) : Prop where
  shows : z.wallAt s = z.wallAt t
  first : ∀ r, z.wallAt r = z.wallAt t → s ≤ r
  secondPass : ∀ d, z.SecondPass (t / 1000) d → s = t - 1000 * d
  otherwise : (∀ d, ¬ z.SecondPass (t / 1000) d) → s = t

/-- `s` is the last instant at which the clocks show what they show at `t`. -/
structure LastShowing (z : Zone) (t s : Int) : Prop where
  shows : z.wallAt s = z.wallAt t
  last : ∀ r, z.wallAt r = z.wallAt t → r ≤ s

theorem firstShowing_of_first (hr : z.Regular) (hs : z.localTime (s / 1000) = z.localTime (t / 1000))
    (hms : s % 1000 = t % 1000)
    (hfirst : ∀ r, z.localTime r = z.localTime (t / 1000) → s / 1000 ≤ r) : z.FirstShowing t s := by
  obtain ⟨hsecond, hother⟩ := eq_of_first hr hs hfirst
  refine ⟨wallAt_eq_iff.mpr ⟨hs, hms⟩, fun r h => ?_, fun d hd => ?_, fun hnone => ?_⟩
  · obtain ⟨hloc, hmod⟩ := wallAt_eq_iff.mp h
    have := hfirst _ hloc
    omega
  · have := hsecond d hd
    omega
  · have := hother hnone
    omega

theorem lastShowing_of_last (hs : z.localTime (s / 1000) = z.localTime (t / 1000))
    (hms : s % 1000 = t % 1000)
    (hlast : ∀ r, z.localTime r = z.localTime (t / 1000) → r ≤ s / 1000) : z.LastShowing t s := by
  refine ⟨wallAt_eq_iff.mpr ⟨hs, hms⟩, fun r h => ?_⟩
  obtain ⟨hloc, hmod⟩ := wallAt_eq_iff.mp h
  have := hlast _ hloc
  omega

end Zone

namespace WallClock

variable {c : WallClock} {z : Zone} {t s : Int} {v : Fields}

theorem fieldsAt_eq_ok_iff (hz : c.zone = .ok z) :
    c.fieldsAt t = .ok v ↔
      inCalendar t = true ∧ inCalendar (z.wallAt t) = true ∧ v = Fields.ofWall (z.wallAt t) := by
  simp only [fieldsAt, hz, ok_bind]
  split
  · rename_i h
    obtain ⟨h1, h2⟩ := Bool.and_eq_true_iff.mp h
    simp only [Except.ok.injEq, h1, h2, true_and, eq_comm]
  · rename_i h
    rw [Bool.and_eq_true_iff] at h
    simp only [reduceCtorEq, false_iff]
    rintro ⟨h1, h2, -⟩
    exact h ⟨h1, h2⟩

/-- Instants that show the same have the same fields. -/
theorem fieldsAt_of_wallAt_eq (hz : c.zone = .ok z) (h : c.fieldsAt t = .ok v)
    (hshows : z.wallAt s = z.wallAt t) (hin : inCalendar s = true) : c.fieldsAt s = .ok v := by
  obtain ⟨-, h2, h3⟩ := (fieldsAt_eq_ok_iff hz).mp h
  exact (fieldsAt_eq_ok_iff hz).mpr ⟨hin, hshows ▸ h2, hshows ▸ h3⟩

theorem inCalendar_of_fieldsAt (hz : c.zone = .ok z) (h : c.fieldsAt t = .ok v) :
    firstWall ≤ t ∧ t ≤ lastWall := by
  have hin := ((fieldsAt_eq_ok_iff hz).mp h).1
  rwa [inCalendar, Bool.and_eq_true, decide_eq_true_eq, decide_eq_true_eq] at hin

/-- The fields are shown again at the first showing, unless that lies before the calendar. -/
theorem fieldsAt_of_firstShowing (hz : c.zone = .ok z) (hr : z.Regular) (h : c.fieldsAt t = .ok v)
    (hs : z.FirstShowing t s) :
    c.fieldsAt s = .ok v ∨ s < firstWall ∧ t < firstWall + 2 * dayMillis := by
  have hin := inCalendar_of_fieldsAt hz h
  have hle := hs.first t rfl
  rcases Int.lt_or_le s firstWall with hbefore | hin'
  · have hshows := hs.shows
    have := hr.bounded (s / 1000)
    have := hr.bounded (t / 1000)
    simp only [Zone.wallAt, dayMillis] at hshows ⊢
    omega
  · refine Or.inl (fieldsAt_of_wallAt_eq hz h hs.shows ?_)
    rw [inCalendar, Bool.and_eq_true, decide_eq_true_eq, decide_eq_true_eq]
    omega

/-- They are shown again at the last one, unless that lies after the calendar. -/
theorem fieldsAt_of_lastShowing (hz : c.zone = .ok z) (h : c.fieldsAt t = .ok v)
    (hs : z.LastShowing t s) : c.fieldsAt s = .ok v ∨ lastWall < s := by
  have hin := inCalendar_of_fieldsAt hz h
  have hle := hs.last t rfl
  rcases Int.lt_or_le lastWall s with hafter | hin'
  · exact Or.inr hafter
  · refine Or.inl (fieldsAt_of_wallAt_eq hz h hs.shows ?_)
    rw [inCalendar, Bool.and_eq_true, decide_eq_true_eq, decide_eq_true_eq]
    omega

theorem instantOf_eq_ok_iff (hz : c.zone = .ok z) :
    c.instantOf v = .ok s ↔
      Covers v ∧ ∃ t, c.instantOfWall? (cycleBack v).rolled = some t ∧
        s = if v.year > 9599 then t + cycleMillis else t := by
  simp only [instantOf, hz, ok_bind, wall?_cycleBack]
  by_cases h : Covers v
  · rw [if_pos h, Option.bind_some, and_iff_right h]
    cases c.instantOfWall? (cycleBack v).rolled with
    | none => simp
    | some t => simp [eq_comm]
  · rw [if_neg h, Option.bind_none]
    simp [h]

theorem instantOfWall?_host_eq_some_iff {w : Int} :
    (host z).instantOfWall? w = some t ↔
      ∃ o, z.searchOffset? (w / 1000) = some o ∧ inCalendar (w - 1000 * o) = true ∧
        t = w - 1000 * o := by
  rw [instantOfWall?, toOption_eq_some_iff, Zone.searchInstant]
  cases z.searchOffset? (w / 1000) with
  | none => simp
  | some o =>
    simp only [Option.some.injEq, exists_eq_left']
    split
    · rename_i hin
      simp only [Except.ok.injEq, hin, true_and, eq_comm]
    · rename_i hout
      simp only [reduceCtorEq, hout, false_and]

/-- Fields that can be brought back always are by the clock of a zone known by name. -/
theorem exists_instantOf_zoned (h : Covers v) : ∃ s, (zoned z).instantOf v = .ok s :=
  ⟨_, (instantOf_eq_ok_iff rfl).mpr ⟨h, _, rfl, rfl⟩⟩

/-- Any clock brings them back when it brings back the wall time that they go by. -/
theorem exists_instantOf_iff (hz : c.zone = .ok z) (h : Covers v) :
    (∃ s, c.instantOf v = .ok s) ↔ ∃ t, c.instantOfWall? (cycleBack v).rolled = some t := by
  constructor
  · rintro ⟨s, hs⟩
    obtain ⟨-, t, ht, -⟩ := (instantOf_eq_ok_iff hz).mp hs
    exact ⟨t, ht⟩
  · rintro ⟨t, ht⟩
    exact ⟨_, (instantOf_eq_ok_iff hz).mpr ⟨h, t, ht, rfl⟩⟩

/-- The host clock brings them back when its search succeeds and ends in the calendar. -/
theorem exists_instantOf_host_iff (h : Covers v) :
    (∃ s, (host z).instantOf v = .ok s) ↔
      ∃ o, z.searchOffset? ((cycleBack v).rolled / 1000) = some o ∧
        inCalendar ((cycleBack v).rolled - 1000 * o) = true := by
  rw [exists_instantOf_iff rfl h]
  constructor
  · rintro ⟨t, ht⟩
    obtain ⟨o, ho, hin, -⟩ := instantOfWall?_host_eq_some_iff.mp ht
    exact ⟨o, ho, hin⟩
  · rintro ⟨o, ho, hin⟩
    exact ⟨_, instantOfWall?_host_eq_some_iff.mpr ⟨o, ho, hin, rfl⟩⟩

/-- It brings nothing back to before the calendar. -/
theorem firstWall_le_of_instantOf_host (h : (host z).instantOf v = .ok s) : firstWall ≤ s := by
  obtain ⟨-, t, ht, hs⟩ := (instantOf_eq_ok_iff rfl).mp h
  obtain ⟨o, -, hin, rfl⟩ := instantOfWall?_host_eq_some_iff.mp ht
  simp only [inCalendar, Bool.and_eq_true, decide_eq_true_eq] at hin
  have hpos : 0 ≤ cycleMillis := by decide
  rw [hs]
  split <;> omega

/-- Why fields in range are not brought back. -/
theorem kind_of_instantOf_error (hz : c.zone = .ok z) (hv : v.Canonical) {e : Fault}
    (h : c.instantOf v = .error e) : ∃ cause, e = .rejected cause ∧ cause.kind = .outOfRange := by
  simp only [instantOf, hz, ok_bind] at h
  split at h
  · cases h
  · refine ⟨.fieldsOutOfRange (cycleBack v), ?_, rfl⟩
    rw [← Except.error.inj h]
    exact Fault.fieldsOutOfRange_of_within (hv.within.cycleBack.mono (by decide))

/-! ## Where the host's clock has no instant -/

/-- The dates that stand in for years above 9599 lie in the calendar, well before its end, and those
    of the first days stand for themselves. -/
theorem rolled_cycleBack_range (hv : v.Canonical) :
    (cycleBack v).rolled < monthStart 9600 1 * dayMillis ∧
      ((cycleBack v).rolled = v.rolled ∨
        monthStart 9200 1 * dayMillis ≤ (cycleBack v).rolled ∧
          monthStart 9200 1 * dayMillis ≤ v.rolled) := by
  have hyear := Fields.rolled_mem_year hv.valid
  have hle := hv.year.2
  have hcycle : monthStart 9200 1 = monthStart 9600 1 - 146097 := monthStart_sub_cycle 9600 1
  have hcycle' : monthStart 9600 1 = monthStart 10000 1 - 146097 := monthStart_sub_cycle 10000 1
  rw [rolled_cycleBack]
  simp only [dayMillis, cycleMillis] at hyear ⊢
  split
  · have := monthStart_one_mono (show 9600 ≤ v.year by omega)
    have := monthStart_one_mono (show v.year + 1 ≤ 10000 by omega)
    omega
  · have := monthStart_one_mono (show v.year + 1 ≤ 9600 by omega)
    omega

/-- Fields of the first date of the calendar denote the wall times of its first day. -/
theorem date_eq_first_iff (hv : v.Canonical) :
    v.date = ⟨1, 1, 1⟩ ↔ v.rolled < firstWall + dayMillis := by
  have hday := Fields.rolled_eq_date hv.valid
  have hfirst : firstWall = (Date.mk 1 1 1).dayNumber * 86400000 := by decide
  obtain ⟨hdate, _, _, _, _⟩ := hv.valid
  constructor
  · intro h
    rw [h] at hday
    simp only [dayMillis]
    omega
  · intro h
    have hle : firstWall ≤ v.rolled := by
      have := (Fields.inCalendar_rolled_iff hv.valid).mpr hv.year
      simp only [inCalendar, Bool.and_eq_true, decide_eq_true_eq] at this
      exact this.1
    have hnumber : v.date.dayNumber = (Date.mk 1 1 1).dayNumber := by
      simp only [dayMillis] at h
      omega
    rw [← Date.ofDayNumber_dayNumber (show v.date.Valid from hdate), hnumber]
    decide

section

variable (hb : z.Bounded)
include hb

/-- A day into the calendar, and as long before its end, only the search can fail. -/
theorem exists_instantOfWall?_host_iff {w : Int} (hlo : firstWall + dayMillis ≤ w)
    (hhi : w + dayMillis ≤ lastWall) :
    (∃ t, (host z).instantOfWall? w = some t) ↔ ∃ o, z.searchOffset? (w / 1000) = some o := by
  constructor
  · rintro ⟨t, ht⟩
    obtain ⟨o, ho, -⟩ := instantOfWall?_host_eq_some_iff.mp ht
    exact ⟨o, ho⟩
  · rintro ⟨o, ho⟩
    have hbound := offset?_bounded (c := host z) rfl hb ho
    refine ⟨w - 1000 * o, instantOfWall?_host_eq_some_iff.mpr ⟨o, ho, ?_, rfl⟩⟩
    simp only [inCalendar, Bool.and_eq_true, decide_eq_true_eq]
    simp only [dayMillis] at hlo hhi
    omega

/-- Three days into the calendar, and as long before its end, the host clock brings back every wall
    time. -/
theorem exists_instantOfWall?_host {w : Int} (hlo : firstWall + 3 * dayMillis ≤ w)
    (hhi : w + 3 * dayMillis ≤ lastWall) : ∃ t, (host z).instantOfWall? w = some t := by
  simp only [dayMillis, firstWall, lastWall] at hlo hhi
  refine (exists_instantOfWall?_host_iff hb ?_ ?_).mpr (Zone.exists_searchOffset? hb ?_ ?_)
  · simp only [dayMillis, firstWall]
    omega
  · simp only [dayMillis, lastWall]
    omega
  · simp only [Zone.firstSecond]
    omega
  · simp only [Zone.lastSecond]
    omega

variable (hv : v.Canonical)
include hv

/-- From the second day of the calendar on only the search can fail. -/
theorem exists_instantOf_host_iff_search (hday : firstWall + dayMillis ≤ (cycleBack v).rolled) :
    (∃ s, (host z).instantOf v = .ok s) ↔
      ∃ o, z.searchOffset? ((cycleBack v).rolled / 1000) = some o := by
  have hhi := (rolled_cycleBack_range hv).1
  have hend : monthStart 9600 1 * dayMillis + dayMillis ≤ lastWall := by decide
  rw [exists_instantOf_iff rfl (covers_of_canonical hv),
    exists_instantOfWall?_host_iff hb hday (by omega)]

/-- From the fourth day of the calendar on the host clock brings back all fields in range. -/
theorem exists_instantOf_host_of_bounded (h : firstWall + 3 * dayMillis ≤ v.rolled) :
    ∃ s, (host z).instantOf v = .ok s := by
  obtain ⟨hhi, hlo⟩ := rolled_cycleBack_range hv
  have hstart : firstWall + 3 * dayMillis ≤ monthStart 9200 1 * dayMillis := by decide
  have hend : monthStart 9600 1 * dayMillis + 3 * dayMillis ≤ lastWall := by decide
  rw [exists_instantOf_iff rfl (covers_of_canonical hv)]
  exact exists_instantOfWall?_host hb (by omega) (by omega)

end

section

variable (hr : z.Regular) (hv : v.Canonical)
include hr hv

theorem exists_instantOf_host (h : firstWall + 3 * dayMillis ≤ v.rolled) :
    ∃ s, (host z).instantOf v = .ok s := exists_instantOf_host_of_bounded hr.bounded hv h

/-- Where the clocks are not changed near the start of the calendar, it brings back the fields in
    range of every day but the first. -/
theorem exists_instantOf_host_iff_of_quiet (hq : z.Quiet) :
    (∃ s, (host z).instantOf v = .ok s) ↔ v.date ≠ ⟨1, 1, 1⟩ := by
  obtain ⟨hhi, hlo⟩ := rolled_cycleBack_range hv
  have hcal := (Fields.inCalendar_rolled_iff (cycleBack_canonical hv).valid).mpr
    (cycleBack_canonical hv).year
  have hstart : firstWall + 3 * 86400000 ≤ monthStart 9200 1 * 86400000 := by decide
  have hend : monthStart 9600 1 * 86400000 + 259200000 ≤ lastWall := by decide
  have hsearch := Zone.exists_searchOffset?_iff_of_quiet hr.bounded hq
    (w := (cycleBack v).rolled / 1000)
  simp only [inCalendar, Bool.and_eq_true, decide_eq_true_eq] at hcal
  simp only [firstWall, lastWall, dayMillis] at hhi hlo hstart hend hcal
  simp only [Zone.firstSecond, Zone.lastSecond] at hsearch
  have hsearch := hsearch (by omega) (by omega)
  rw [ne_eq, date_eq_first_iff hv]
  rcases Int.lt_or_le (cycleBack v).rolled (firstWall + dayMillis) with hfirst | hlater
  · simp only [firstWall, dayMillis] at hfirst ⊢
    refine iff_of_false ?_ (by omega)
    rw [exists_instantOf_host_iff (covers_of_canonical hv)]
    rintro ⟨o, ho, -⟩
    have := hsearch.mp ⟨o, ho⟩
    omega
  · rw [exists_instantOf_host_iff_search hr.bounded hv hlater, hsearch]
    simp only [firstWall, dayMillis] at hlater ⊢
    omega

end

/-! ## There and back -/

section

variable (hz : c.zone = .ok z) (hr : z.Regular) (hc : z.Cyclic)
include hz hr hc

/-- What fields of a wall time that the clocks show come back to, in seconds; the milliseconds are
    kept. -/
theorem instantOf_of_wallAt (hv : v.Canonical) (hw : z.wallAt t = v.rolled)
    (hs : c.instantOf v = .ok s) :
    s / 1000 = z.localTime (t / 1000) - c.offset (z.localTime (t / 1000)) ∧
      s % 1000 = t % 1000 := by
  have hsub := instantOf_eq_sub hz hr hc hs hv.le_rolled_of_year
  rw [← hw, z.wallAt_eq t, show (1000 * z.localTime (t / 1000) + t % 1000) / 1000 =
    z.localTime (t / 1000) by omega] at hsub
  omega

end

section

variable (hr : z.Regular) (hc : z.Cyclic)
include hr hc

/-- A zone known by name brings a wall time that its clocks show back to the first showing. -/
theorem firstShowing_of_wallAt_zoned (hv : v.Canonical) (hw : z.wallAt t = v.rolled)
    (hs : (zoned z).instantOf v = .ok s) : z.FirstShowing t s := by
  obtain ⟨hsec, hms⟩ := instantOf_of_wallAt rfl hr hc hv hw hs
  obtain ⟨hshows, hfirst⟩ := Zone.offsetOfWall_first hr (u := t / 1000) rfl
  rw [offset] at hsec
  exact Zone.firstShowing_of_first hr (hsec ▸ hshows) hms (hsec ▸ hfirst)

/-- The host does so too, or else it comes back to the last showing. -/
theorem showing_of_wallAt_host (hv : v.Canonical) (hw : z.wallAt t = v.rolled)
    (hs : (host z).instantOf v = .ok s) :
    (¬ z.DeepInOverlap (v.rolled / 1000) → z.FirstShowing t s) ∧
      (z.DeepInOverlap (v.rolled / 1000) → z.LastShowing t s) := by
  obtain ⟨hsec, hms⟩ := instantOf_of_wallAt rfl hr hc hv hw hs
  obtain ⟨hshows, hfirst, hlast⟩ := Zone.searched_first hr (u := t / 1000) rfl
  have hwall : v.rolled / 1000 = z.localTime (t / 1000) := by
    rw [← hw, z.wallAt_eq t]
    omega
  rw [offset] at hsec
  rw [hwall]
  exact ⟨fun hdeep => Zone.firstShowing_of_first hr (hsec ▸ hshows) hms (hsec ▸ hfirst hdeep),
    fun hdeep => Zone.lastShowing_of_last (hsec ▸ hshows) hms (hsec ▸ hlast hdeep)⟩

omit hr hc in
theorem wallAt_of_fieldsAt (hz : c.zone = .ok z) (h : c.fieldsAt t = .ok v) :
    z.wallAt t = v.rolled := by
  obtain ⟨-, -, hv⟩ := (fieldsAt_eq_ok_iff hz).mp h
  rw [hv, Fields.rolled_ofWall]

/-- A zone known by name comes back to the first showing. -/
theorem firstShowing_of_instantOf_zoned (h : (zoned z).fieldsAt t = .ok v)
    (hs : (zoned z).instantOf v = .ok s) : z.FirstShowing t s :=
  firstShowing_of_wallAt_zoned hr hc (canonical_of_fieldsAt h) (wallAt_of_fieldsAt rfl h) hs

/-- The host does so too, or else it comes back to the last showing. -/
theorem showing_of_instantOf_host (h : (host z).fieldsAt t = .ok v)
    (hs : (host z).instantOf v = .ok s) :
    (¬ z.DeepInOverlap (z.wallAt t / 1000) → z.FirstShowing t s) ∧
      (z.DeepInOverlap (z.wallAt t / 1000) → z.LastShowing t s) := by
  have hw : z.wallAt t = v.rolled := wallAt_of_fieldsAt rfl h
  rw [hw]
  exact showing_of_wallAt_host hr hc (canonical_of_fieldsAt h) hw hs

/-- Reading the fields of an instant off a clock and bringing them back. In a zone known by name this
    always succeeds and comes to the earliest instant that shows the fields, which shows them again
    unless it lies before the calendar. The host comes to the same instant, except that it takes the
    last one for wall times a day or more into an overlap, and that it has no instant on the first
    date of the calendar. Only if the clocks are changed within three days of the start of the
    calendar can it have none on the two dates after that, or have one on the first. -/
theorem instantOf_fieldsAt (h : (zoned z).fieldsAt t = .ok v) :
    (∃ s, (zoned z).instantOf v = .ok s ∧ z.FirstShowing t s ∧
      ((zoned z).fieldsAt s = .ok v ∨ s < firstWall ∧ t < firstWall + 2 * dayMillis)) ∧
    ((host z).fieldsAt t = .ok v ∧
      (∀ s, (host z).instantOf v = .ok s →
        (¬ z.DeepInOverlap (z.wallAt t / 1000) →
          z.FirstShowing t s ∧ (host z).fieldsAt s = .ok v) ∧
        (z.DeepInOverlap (z.wallAt t / 1000) →
          z.LastShowing t s ∧ ((host z).fieldsAt s = .ok v ∨ lastWall < s))) ∧
      (∀ e, (host z).instantOf v = .error e →
        ∃ cause, e = .rejected cause ∧ cause.kind = .outOfRange) ∧
      (firstWall + 3 * dayMillis ≤ z.wallAt t → ∃ s, (host z).instantOf v = .ok s) ∧
      (z.Quiet → ((∃ s, (host z).instantOf v = .ok s) ↔ v.date ≠ ⟨1, 1, 1⟩))) := by
  have hv := canonical_of_fieldsAt h
  have hhost : (host z).fieldsAt t = .ok v := h
  refine ⟨?_, hhost, ?_, fun e he => kind_of_instantOf_error rfl hv he, ?_,
    exists_instantOf_host_iff_of_quiet hr hv⟩
  · obtain ⟨s, hs⟩ := exists_instantOf_zoned (z := z) (covers_of_canonical hv)
    have hfirst := firstShowing_of_instantOf_zoned hr hc h hs
    exact ⟨s, hs, hfirst, fieldsAt_of_firstShowing rfl hr h hfirst⟩
  · intro s hs
    obtain ⟨hfirst, hlast⟩ := showing_of_instantOf_host hr hc hhost hs
    have hlo := firstWall_le_of_instantOf_host hs
    constructor
    · intro hdeep
      have hagain := fieldsAt_of_firstShowing rfl hr hhost (hfirst hdeep)
      exact ⟨hfirst hdeep, hagain.resolve_right (by omega)⟩
    · intro hdeep
      exact ⟨hlast hdeep, fieldsAt_of_lastShowing rfl hhost (hlast hdeep)⟩
  · intro hlate
    have hshown := ((fieldsAt_eq_ok_iff rfl).mp h).2.2
    rw [← Fields.rolled_ofWall (z.wallAt t), ← hshown] at hlate
    exact exists_instantOf_host hr hv hlate

end

/-- Half past one of the night in which eastern summer time ends comes back an hour early in its
    second pass, by either clock. -/
theorem instantOf_fieldsAt_second_pass :
    (zoned Zone.eastern).fieldsAt 1636266600000 = .ok ⟨2021, 11, 7, 1, 30, 0, 0⟩ ∧
      Zone.eastern.SecondPass (1636266600000 / 1000) 3600 ∧
      (∃ s, (zoned Zone.eastern).instantOf ⟨2021, 11, 7, 1, 30, 0, 0⟩ = .ok s ∧
        s = 1636263000000) ∧
      ∃ s, (host Zone.eastern).instantOf ⟨2021, 11, 7, 1, 30, 0, 0⟩ = .ok s ∧
        s = 1636263000000 := by
  have hshown : (zoned Zone.eastern).fieldsAt 1636266600000 = .ok ⟨2021, 11, 7, 1, 30, 0, 0⟩ := by
    decide +kernel
  have hpass : Zone.eastern.SecondPass (1636266600000 / 1000) 3600 :=
    ⟨1636264800, ⟨by decide, by decide +kernel⟩, by decide, by decide⟩
  have hdeep : ∀ w, ¬ Zone.eastern.DeepInOverlap w := by
    rintro w ⟨turn, d, ⟨-, hd⟩, h1, h2⟩
    have hbefore := Zone.eastern_temperate.offsetAt_eq_or (turn - 1)
    have hafter := Zone.eastern_temperate.offsetAt_eq_or turn
    simp only [Zone.eastern_eq, Zone.ofRule, Zone.easternSummer] at hd hbefore hafter
    omega
  obtain ⟨⟨s, hs, hfirst, -⟩, -, hshowing, -, -, hquiet⟩ :=
    instantOf_fieldsAt Zone.eastern_regular Zone.eastern_cyclic hshown
  obtain ⟨s', hs'⟩ := (hquiet (Zone.eastern_eq ▸ Zone.eastern_temperate.quiet)).mpr (by decide)
  exact ⟨hshown, hpass, ⟨s, hs, hfirst.secondPass _ hpass⟩,
    ⟨s', hs', ((hshowing s' hs').1 (hdeep _)).1.secondPass _ hpass⟩⟩

/-- Clocks 46 hours back in summer. -/
def farSummer : Zone.Summer := ⟨-82800, ⟨3, 2, 0, 7200⟩, ⟨11, 1, 0, 7200⟩⟩

theorem zone_farSummer :
    Zone.Posix.zone "AAA-23BBB23,M3.2.0,M11.1.0" = Zone.ofRule ⟨82800, some farSummer⟩ :=
  Zone.Posix.zone_eq_ofRule (by decide +kernel)

theorem farSummer_temperate : Zone.Rule.Temperate ⟨82800, some farSummer⟩ farSummer :=
  ⟨rfl, by decide, by decide, by decide, by decide⟩

/-- The limits are reached: by the host in an overlap of 46 hours, by a zone known by name whose
    clocks are put back on the first day of the calendar, and by a host whose clocks are put forward
    on that day. -/
theorem roundTrip_limits :
    (¬ ∀ z : Zone, z.Regular → z.Cyclic → ∀ t v, (host z).fieldsAt t = .ok v → v.date ≠ ⟨1, 1, 1⟩ →
      ∃ s, (host z).instantOf v = .ok s ∧ ∀ r, z.wallAt r = z.wallAt t → s ≤ r) ∧
    (¬ ∀ z : Zone, z.Regular → z.Cyclic → ∀ t v, (zoned z).fieldsAt t = .ok v →
      ∃ s, (zoned z).instantOf v = .ok s ∧ (zoned z).fieldsAt s = .ok v) ∧
    (¬ ∀ z : Zone, z.Regular → z.Cyclic → ∀ t v, (host z).fieldsAt t = .ok v → v.date ≠ ⟨1, 1, 1⟩ →
      ∃ s, (host z).instantOf v = .ok s) := by
  refine ⟨fun h => ?_, fun h => ?_, fun h => ?_⟩
  · obtain ⟨s, hs, hfirst⟩ := h _ (zone_farSummer ▸ farSummer_temperate.regular)
      (zone_farSummer ▸ farSummer_temperate.cyclic) 1615712400000 ⟨2021, 3, 13, 10, 0, 0, 0⟩
      (by decide +kernel) (by decide)
    have hlast : (host (Zone.Posix.zone "AAA-23BBB23,M3.2.0,M11.1.0")).instantOf
        ⟨2021, 3, 13, 10, 0, 0, 0⟩ = .ok 1615712400000 := by decide +kernel
    have := hfirst 1615546800000 (by decide +kernel)
    cases hs.symm.trans hlast
    omega
  · obtain ⟨s, hs, hshown⟩ := h (Zone.changedOnce (Zone.firstSecond + 3600) 36000 0)
      (Zone.changedOnce_regular (by decide) (by decide)) (Zone.changedOnce_cyclic (by decide))
      (firstWall + 7200000) ⟨1, 1, 1, 2, 0, 0, 0⟩ (by decide +kernel)
    have hfirst : (zoned (Zone.changedOnce (Zone.firstSecond + 3600) 36000 0)).instantOf
        ⟨1, 1, 1, 2, 0, 0, 0⟩ = .ok (firstWall - 28800000) := by decide +kernel
    cases hs.symm.trans hfirst
    exact absurd hshown (by decide +kernel)
  · obtain ⟨s, hs⟩ := h (Zone.changedOnce (Zone.firstSecond + 3600) 0 36000)
      (Zone.changedOnce_regular (by decide) (by decide)) (Zone.changedOnce_cyclic (by decide))
      (firstWall + 54000000) ⟨1, 1, 2, 1, 0, 0, 0⟩ (by decide +kernel) (by decide)
    have hnone : (host (Zone.changedOnce (Zone.firstSecond + 3600) 0 36000)).instantOf
        ⟨1, 1, 2, 1, 0, 0, 0⟩ =
          .error (.rejected (.fieldsOutOfRange ⟨1, 1, 2, 1, 0, 0, 0⟩)) := by decide +kernel
    cases hs.symm.trans hnone

end WallClock

end Timespan
