/-
  The clock of the host beside that of the same zone known by name. One goes by a threshold, the
  other searches; yet both bring a wall time that the clocks show back to its first pass, and they
  differ by the length of the gap where the clocks skip it (`instantOf_host_zoned`). The host falls
  short in two places: of an overlap longer than a day it misses the first pass of what lies a day
  or more behind the change, and near the start of the calendar it may read a clock that shows no
  date (`host_limits`).
-/
import Timespan.Proofs.Clock.RoundTrip

namespace Timespan

open Timespan.Calendar

namespace Zone

variable {z : Zone} {turn d first past w : Int}

/-! ## What the search reads -/

/-- The seconds at which the search for a wall time reads the clocks. -/
inductive Reads (z : Zone) (w : Int) : Int → Prop
  | wall : Reads z w w
  | first : Reads z w (w - z.offsetAt w)
  | dayBefore (h : z.localTime (w - z.offsetAt w) = w) : Reads z w (w - z.offsetAt w - 86400)
  | earlier (h : z.localTime (w - z.offsetAt w) = w) :
      Reads z w (w - z.offsetAt (w - z.offsetAt w - 86400))
  | other (h : z.localTime (w - z.offsetAt w) ≠ w) :
      Reads z w (w - z.offsetAt (w - z.offsetAt w))

theorem exists_searchOffset?_iff_readable :
    (∃ o, z.searchOffset? w = some o) ↔ ∀ u, z.Reads w u → z.Readable u := by
  rw [exists_searchOffset?_iff]
  constructor
  · rintro ⟨hwall, hfirst, heq, hne⟩ u hu
    cases hu with
    | wall => exact hwall
    | first => exact hfirst
    | dayBefore h => exact (heq h).1
    | earlier h => exact (heq h).2
    | other h => exact hne h
  · intro h
    exact ⟨h _ .wall, h _ .first, fun heq => ⟨h _ (.dayBefore heq), h _ (.earlier heq)⟩,
      fun hne => h _ (.other hne)⟩

/-- The search ends well for a wall time, in milliseconds: what it reads off the clocks lies in the
    calendar, and so does the instant that it comes to. -/
def Finds (z : Zone) (w : Int) : Prop :=
  (∀ u, z.Reads (w / 1000) u → z.Readable u) ∧
    inCalendar (w - 1000 * z.searched (w / 1000)) = true

/-! ## Gaps and overlaps -/

section

variable (hr : z.Regular)
include hr

/-- Within a day of a wall time in a gap nothing changes the clocks but the gap. -/
theorem Skips.exists_step (h : z.Skips first past) (h1 : first ≤ w) (h2 : w < past) :
    ∃ turn a b, (-86400 < a ∧ a < 86400) ∧ (-86400 < b ∧ b < 86400) ∧ a < b ∧
      first = turn + a ∧ past = turn + b ∧ z.Step (w - 86400) (w + 86400) turn a b := by
  obtain ⟨hlt, u, rfl, rfl⟩ := h
  obtain ⟨turn, a, b, ha, hb, hs⟩ := hr.exists_step_around w
  have := hr.bounded (u - 1)
  have := hr.bounded u
  have hturns : z.Turns u := by
    rw [Turns]
    omega
  obtain rfl : u = turn := hs.eq_turn (by omega) (by omega) hturns
  obtain ⟨hbefore, hafter⟩ := hs.offsets (by omega) (by omega)
  exact ⟨u, a, b, ha, hb, by omega, by rw [hbefore], by rw [hafter], hs⟩

/-- In a gap the host's offset is ahead by the length of the gap. -/
theorem Skips.searched_eq (h : z.Skips first past) (h1 : first ≤ w) (h2 : w < past) :
    z.searched w = z.offsetOfWall w + (past - first) := by
  obtain ⟨turn, a, b, ha, hb, hlt, rfl, rfl, hs⟩ := h.exists_step hr h1 h2
  have hnamed := offsetOfWall_of_step ha hb hs
  have hhost := searched_of_step hr ha hb hs
  split_ifs at hnamed hhost <;> omega

/-- A day or more into an overlap it is behind by the length of the overlap. -/
theorem PutBack.searched_eq (h : z.PutBack turn d) (h1 : z.localTime turn + 86400 ≤ w)
    (h2 : w < z.localTime turn + d) : z.searched w = z.offsetOfWall w - d := by
  obtain ⟨turn', a, b, ha, hb, hs⟩ := hr.exists_step_around w
  have := hr.bounded (turn - 1)
  have := hr.bounded turn
  have hd := h.2
  simp only [localTime] at h1 h2
  obtain rfl : turn = turn' := hs.eq_turn (by omega) (by omega) h.turns
  obtain ⟨hbefore, hafter⟩ := hs.offsets (by omega) (by omega)
  have hnamed := offsetOfWall_of_step ha hb hs
  have hhost := searched_of_step hr ha hb hs
  split_ifs at hnamed hhost <;> omega

/-- The clocks show every wall time but those in gaps. -/
theorem exists_localTime_eq_iff :
    (∃ u, z.localTime u = w) ↔ ¬ ∃ first past, z.Skips first past ∧ first ≤ w ∧ w < past := by
  constructor
  · rintro ⟨u, hu⟩ ⟨first, past, h, h1, h2⟩
    obtain ⟨turn, a, b, -, -, -, rfl, rfl, hs⟩ := h.exists_step hr h1 h2
    have := hs.eq_of_shown hr hu
    split_ifs at this <;> omega
  · intro hno
    obtain ⟨turn, a, b, ha, hb, hs⟩ := hr.exists_step_around w
    have hbefore := hs (w - a) (by omega) (by omega)
    have hafter := hs (w - b) (by omega) (by omega)
    rcases Int.lt_or_le (w - a) turn with hold | hold
    · refine ⟨w - a, ?_⟩
      rw [localTime, hbefore, if_pos hold]
      omega
    rcases Int.lt_or_le (w - b) turn with hnew | hnew
    · -- past the end of the old offset and before the start of the new one
      obtain ⟨hlast, hfirst⟩ := hs.offsets (by omega) (by omega)
      refine absurd ⟨turn + a, turn + b, ⟨by omega, turn, ?_, ?_⟩, by omega, by omega⟩ hno
      · rw [hlast]
      · rw [hfirst]
    · refine ⟨w - b, ?_⟩
      rw [localTime, hafter, if_neg (by omega)]
      omega

/-- The same for milliseconds: they run on within every second. -/
theorem exists_wallAt_eq_iff {w : Int} :
    (∃ t, z.wallAt t = w) ↔
      ¬ ∃ first past, z.Skips first past ∧ 1000 * first ≤ w ∧ w < 1000 * past := by
  have hseconds : (∃ t, z.wallAt t = w) ↔ ∃ u, z.localTime u = w / 1000 := by
    constructor
    · rintro ⟨t, rfl⟩
      refine ⟨t / 1000, ?_⟩
      rw [z.wallAt_eq t]
      omega
    · rintro ⟨u, hu⟩
      refine ⟨1000 * u + w % 1000, ?_⟩
      rw [z.wallAt_eq, show (1000 * u + w % 1000) / 1000 = u by omega]
      omega
  rw [hseconds, exists_localTime_eq_iff hr]
  refine not_congr (exists_congr fun first => exists_congr fun past => and_congr_right fun _ => ?_)
  omega

end

end Zone

namespace WallClock

variable {z : Zone} {v : Fields}

/-- The host clock brings fields back when its search ends well. -/
theorem exists_instantOf_host_iff_finds (h : Covers v) :
    (∃ s, (host z).instantOf v = .ok s) ↔ z.Finds (cycleBack v).rolled := by
  rw [exists_instantOf_host_iff h, Zone.Finds, ← Zone.exists_searchOffset?_iff_readable]
  constructor
  · rintro ⟨o, ho, hin⟩
    rw [Zone.eq_searched_of_searchOffset? ho] at hin
    exact ⟨⟨o, ho⟩, hin⟩
  · rintro ⟨⟨o, ho⟩, hin⟩
    rw [← Zone.eq_searched_of_searchOffset? ho] at hin
    exact ⟨o, ho, hin⟩

/-- Fields in range of any date are brought back by the clock of a zone known by name. The host's
    brings them back where its search ends well, so from the fourth day of the calendar on, and,
    where the clocks are not changed near the first day, on all days but that one. A wall time that
    the clocks show comes to the instant of its first showing by both, only that the host is late by
    the length of the overlap a day or more into one that is longer than a day. A wall time in a gap
    comes to an earlier instant by the host, by the length of the gap. -/
theorem instantOf_host_zoned (hr : z.Regular) (hc : z.Cyclic) (hv : v.Canonical) :
    ∃ s, (zoned z).instantOf v = .ok s ∧
      ((∃ s', (host z).instantOf v = .ok s') ↔ z.Finds (cycleBack v).rolled) ∧
      (∀ e, (host z).instantOf v = .error e →
        ∃ cause, e = .rejected cause ∧ cause.kind = .outOfRange) ∧
      (firstWall + 3 * dayMillis ≤ v.rolled → ∃ s', (host z).instantOf v = .ok s') ∧
      (z.Quiet → ((∃ s', (host z).instantOf v = .ok s') ↔ v.date ≠ ⟨1, 1, 1⟩)) ∧
      ((∃ t, z.wallAt t = v.rolled) ↔
        ¬ ∃ first past, z.Skips first past ∧ 1000 * first ≤ v.rolled ∧ v.rolled < 1000 * past) ∧
      ((∃ t, z.wallAt t = v.rolled) →
        z.wallAt s = v.rolled ∧ ∀ t, z.wallAt t = v.rolled → s ≤ t) ∧
      ∀ s', (host z).instantOf v = .ok s' →
        ((∃ t, z.wallAt t = v.rolled) → ¬ z.DeepInOverlap (v.rolled / 1000) → s' = s) ∧
        (∀ turn d, z.PutBack turn d → z.localTime turn + 86400 ≤ v.rolled / 1000 →
          v.rolled / 1000 < z.localTime turn + d → s' = s + 1000 * d) ∧
        ∀ first past, z.Skips first past → 1000 * first ≤ v.rolled → v.rolled < 1000 * past →
          s' = s - 1000 * (past - first) := by
  obtain ⟨s, hs⟩ := exists_instantOf_zoned (z := z) (covers_of_canonical hv)
  have hfar : 9599 < v.year → monthStart 9600 1 * dayMillis ≤ v.rolled := fun hy =>
    Fields.le_rolled_of_year hy hv.valid.date.month.1 hv.valid.millisInMonth_nonneg
  have hnamed := instantOf_eq_sub rfl hr hc hs hfar
  rw [offset] at hnamed
  refine ⟨s, hs, exists_instantOf_host_iff_finds (covers_of_canonical hv),
    fun e he => kind_of_instantOf_error rfl hv he, exists_instantOf_host hr hv,
    exists_instantOf_host_iff_of_quiet hr hv, Zone.exists_wallAt_eq_iff hr, ?_, ?_⟩
  · rintro ⟨t, ht⟩
    have hfirst := firstShowing_of_wallAt_zoned hr hc hv ht hs
    exact ⟨hfirst.shows.trans ht, fun r h => hfirst.first r (h.trans ht.symm)⟩
  · intro s' hs'
    have hhost := instantOf_eq_sub rfl hr hc hs' hfar
    rw [offset] at hhost
    refine ⟨?_, fun turn d hback h1 h2 => ?_, fun first past hgap h1 h2 => ?_⟩
    · rintro ⟨t, ht⟩ hdeep
      have hfirst := firstShowing_of_wallAt_zoned hr hc hv ht hs
      have hfirst' := (showing_of_wallAt_host hr hc hv ht hs').1 hdeep
      exact Int.le_antisymm (hfirst'.first s hfirst.shows) (hfirst.first s' hfirst'.shows)
    · have := hback.searched_eq hr h1 h2
      omega
    · have := hgap.searched_eq hr (w := v.rolled / 1000) (by omega) (by omega)
      omega

/-- Half past two of the night in which eastern summer time starts, which no clock shows, comes to
    an hour earlier by the host. -/
theorem instantOf_host_zoned_summer_starts :
    ∃ s s', (zoned Zone.eastern).instantOf ⟨2021, 3, 14, 2, 30, 0, 0⟩ = .ok s ∧
      (host Zone.eastern).instantOf ⟨2021, 3, 14, 2, 30, 0, 0⟩ = .ok s' ∧
      s' = s - 1000 * 3600 := by
  obtain ⟨s, hs, -, -, hlate, -, -, -, hhost⟩ := instantOf_host_zoned Zone.eastern_regular
    Zone.eastern_cyclic (v := ⟨2021, 3, 14, 2, 30, 0, 0⟩) (Fields.canonical_iff.mpr (by decide))
  obtain ⟨s', hs'⟩ := hlate (by decide)
  have hgap : Zone.eastern.Skips 1615687200 1615690800 :=
    ⟨by decide, 1615705200, by decide +kernel, by decide +kernel⟩
  exact ⟨s, s', hs, hs', (hhost s' hs').2.2 _ _ hgap (by decide) (by decide)⟩

/-- Ten o'clock on the day before clocks are put back by 46 hours is shown two days apart, and the
    host takes the second; and clocks that are put forward on the first day of the calendar leave
    the host without an instant on the second. -/
theorem host_limits :
    (¬ ∀ z : Zone, z.Regular → z.Cyclic → ∀ v : Fields, v.Canonical → ∀ s s',
      (zoned z).instantOf v = .ok s → (host z).instantOf v = .ok s' →
      (∃ t, z.wallAt t = v.rolled) → s' = s) ∧
    (¬ ∀ z : Zone, z.Regular → z.Cyclic → ∀ v : Fields, v.Canonical →
      ((∃ e, (host z).instantOf v = .error e) ↔ v.date = ⟨1, 1, 1⟩)) := by
  refine ⟨fun h => ?_, fun h => ?_⟩
  · have hsame := h _ (zone_farSummer ▸ farSummer_temperate.regular)
      (zone_farSummer ▸ farSummer_temperate.cyclic) ⟨2021, 3, 13, 10, 0, 0, 0⟩
      (Fields.canonical_iff.mpr (by decide)) 1615546800000 1615712400000 (by decide +kernel)
      (by decide +kernel) ⟨1615712400000, by decide +kernel⟩
    omega
  · have hfirst := (h (Zone.changedOnce (Zone.firstSecond + 3600) 0 36000)
      (Zone.changedOnce_regular (by decide) (by decide)) (Zone.changedOnce_cyclic (by decide))
      ⟨1, 1, 2, 1, 0, 0, 0⟩ (Fields.canonical_iff.mpr (by decide))).mp
      ⟨.rejected (.fieldsOutOfRange ⟨1, 1, 2, 1, 0, 0, 0⟩), by decide +kernel⟩
    exact absurd hfirst (by decide)

end WallClock

end Timespan
