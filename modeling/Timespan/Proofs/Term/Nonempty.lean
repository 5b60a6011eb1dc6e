/-
  When the range of a term holds an instant. On a clock that is never changed, as in UTC, it always
  does. On any other clock it does unless a gap swallows the range, and no gap is long enough for a
  week, a month, a quarter or a year. The two o'clock hour of the day on which summer time starts
  is such a range without an instant.
-/
import Timespan.Proofs.Clock.Gap
import Timespan.Proofs.Term.Form
import Timespan.Zone.Atlas

namespace Timespan.Term

open Timespan.Calendar

variable {c : WallClock} {origin : Int} {text : List Char}

/-- A term names one day, hour, minute or second, or else a range between two days and 400 years
    long. -/
theorem Names.short_or_wide {v : Fields} {g : Grain} {n : Int} (h : Names c origin text v g n) :
    (n = 1 ∧ ∃ m, g.millis? = some m ∧ 0 < m ∧ m ≤ dayMillis) ∨
      (v.rolled + 2 * dayMillis ≤ (v.add g n).rolled ∧
        (v.add g n).rolled ≤ v.rolled + cycleMillis) := by
  have hmonths : ∀ (v : Fields) (k : Nat), 1 ≤ k → k ≤ 12 →
      v.rolled + 2 * dayMillis ≤ (v.add .month k).rolled ∧
        (v.add .month k).rolled ≤ v.rolled + cycleMillis := by
    intro v k h1 h2
    have := Fields.rolled_add_month_range v k
    simp only [dayMillis, cycleMillis] at this ⊢
    omega
  have hyear : ∀ v : Fields, v.rolled + 2 * dayMillis ≤ (v.add .year 1).rolled ∧
      (v.add .year 1).rolled ≤ v.rolled + cycleMillis := by
    intro v
    rw [Fields.rolled_add_year]
    exact hmonths v 12 (by decide) (by decide)
  cases h with
  | @period word r p now hform hword hnow hstart =>
    cases p with
    | day => exact Or.inl ⟨rfl, _, rfl, by decide, by decide⟩
    | week =>
      right
      rw [Fields.rolled_add_of_millis? v (m := dayMillis) rfl]
      simp only [Period.length, dayMillis, cycleMillis]
      omega
    | month => exact Or.inr (hmonths v 1 (by decide) (by decide))
    | quarter => exact Or.inr (hmonths v 3 (by decide) (by decide))
    | year => exact Or.inr (hyear v)
  | literal =>
    cases g with
    | year => exact Or.inr (hyear _)
    | month => exact Or.inr (hmonths _ 1 (by decide) (by decide))
    | _ => exact Or.inl ⟨rfl, _, rfl, by decide, by decide⟩

theorem Names.rolled_lt {v : Fields} {g : Grain} {n : Int} (h : Names c origin text v g n) :
    v.rolled < (v.add g n).rolled := by
  rcases h.short_or_wide with ⟨rfl, m, hm, hpos, -⟩ | ⟨hwide, -⟩
  · rw [Fields.rolled_add_of_millis? v hm]
    omega
  · simp only [dayMillis] at hwide
    omega

/-- In UTC every range holds an instant. -/
theorem resolve_utc_start_lt_stop {i : Interval}
    (h : resolve WallClock.utc origin text = .ok (.interval i)) : i.start < i.stop := by
  obtain ⟨v, g, n, hn, hi⟩ := resolve_eq_interval_iff.mp h
  have hfixed : ∀ u, ¬ Zone.utc.Turns u := fun u hu => hu rfl
  exact WallClock.interval_lt_of_not_turns rfl hfixed hn.rolled_lt hi

/-- The range of a term starts before it stops just when the offset at its stop is ahead of the one
    at its start by less than its width on the wall. On a clock that is never changed it always
    does. In a regular zone it does unless a gap swallows it, and then it is a single day, hour,
    minute or second. -/
theorem resolve_start_lt_stop_iff {i : Interval} (h : resolve c origin text = .ok (.interval i)) :
    ∃ v g n, Names c origin text v g n ∧ c.interval v g n = .ok i ∧
      (∃ o p, c.offset? ((WallClock.cycleBack v).rolled / 1000) = some o ∧
        c.offset? ((WallClock.cycleBack (v.add g n)).rolled / 1000) = some p ∧
        (i.start < i.stop ↔ 1000 * (p - o) < (v.add g n).rolled - v.rolled)) ∧
      (∀ z, c.zone = .ok z → (∀ u, ¬ z.Turns u) → i.start < i.stop) ∧
      ∀ z, c.zone = .ok z → z.Regular →
        (i.start < i.stop ↔ ¬ c.Swallows (WallClock.cycleBack v).rolled
          (WallClock.cycleBack (v.add g n)).rolled) ∧
        (i.stop ≤ i.start → n = 1 ∧ Grain.day.index ≤ g.index) := by
  obtain ⟨v, g, n, hn, hi⟩ := resolve_eq_interval_iff.mp h
  obtain ⟨o, p, ho, hp, hiff⟩ := WallClock.interval_lt_iff hi
  refine ⟨v, g, n, hn, hi, ⟨o, p, ho, hp, hiff⟩, ?_, ?_⟩
  · intro z hz hfixed
    exact WallClock.interval_lt_of_not_turns hz hfixed hn.rolled_lt hi
  · intro z hz hr
    rcases hn.short_or_wide with ⟨rfl, m, hm, hpos, hday⟩ | ⟨hwide, hcycle⟩
    · refine ⟨WallClock.interval_lt_iff_of_short hz hr hm (by omega) (by omega) hi, fun _ => ?_⟩
      refine ⟨rfl, ?_⟩
      cases g with
      | year => cases hm
      | month => cases hm
      | _ => decide
    · obtain ⟨hlt, hsw⟩ := WallClock.interval_lt_of_wide hz hr hwide hcycle hi
      exact ⟨iff_of_true hlt hsw, fun hle => by omega⟩

/-- Eastern time with the one change of spring 2021, an hour forward at two o'clock. -/
def springForward : Zone := Zone.ofSchedule ⟨-18000, [⟨1615705200, -14400⟩], ⟨-14400, none⟩⟩

theorem springForward_regular : springForward.Regular := by
  have hoff : ∀ u, springForward.offsetAt u = if u < 1615705200 then -18000 else -14400 := by
    intro u
    rfl
  refine ⟨fun u => ?_, fun u v hu hv huv => ?_⟩
  · rw [hoff]
    split <;> omega
  · simp only [Zone.Turns, hoff] at hu hv
    split_ifs at hu hv <;> omega

/-- The two o'clock hour of that day is swallowed. -/
theorem resolve_start_lt_stop_iff_spring_forward :
    ∃ v g n, Names (.zoned springForward) 0 "2021-03-14 02".toList v g n ∧
      (WallClock.zoned springForward).interval v g n = .ok ⟨1615705200000, 1615705200000⟩ ∧
      (WallClock.zoned springForward).Swallows (WallClock.cycleBack v).rolled
        (WallClock.cycleBack (v.add g n)).rolled ∧
      n = 1 ∧ Grain.day.index ≤ g.index := by
  have h : resolve (.zoned springForward) 0 "2021-03-14 02".toList =
      .ok (.interval ⟨1615705200000, 1615705200000⟩) := by decide +kernel
  obtain ⟨v, g, n, hn, hi, -, -, hr⟩ := resolve_start_lt_stop_iff h
  obtain ⟨hiff, hshort⟩ := hr _ rfl springForward_regular
  obtain ⟨hone, hgrain⟩ := hshort (by decide)
  refine ⟨v, g, n, hn, hi, ?_, hone, hgrain⟩
  by_contra hsw
  exact absurd (hiff.mpr hsw) (by decide)

/-- In New York that hour stops where it starts. -/
theorem newYork_skipped_hour :
    ¬ ∀ (m : Mode) (origin : Int) (text : List Char) (i : Interval),
      resolve ((Atlas.ofHost "UTC0").clock m) origin text = .ok (.interval i) →
        i.start < i.stop := by
  intro h
  have h1 := h ⟨false, some "America/New_York"⟩ 0 "2021-03-14 02".toList
    ⟨1615705200000, 1615705200000⟩ (by decide +kernel)
  exact absurd h1 (by decide)

end Timespan.Term
