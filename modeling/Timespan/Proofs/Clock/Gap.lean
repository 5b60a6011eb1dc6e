/-
  Ranges and gaps. Both ends of a calendar range are brought back one by one, each with the offset
  at its own date, so a change of the clocks between them can turn them round. That happens just
  when a gap swallows the range: the gap is at least as long, and the clock takes up the new offset
  within the range. A zone known by name does so at the end of a gap, the host at its start.
-/
import Timespan.Proofs.Calendar.Width
import Timespan.Proofs.Clock.Utc
import Timespan.Proofs.Except
import Timespan.Proofs.Zone.Change
import Mathlib.Tactic.ByContra

namespace Timespan

open Timespan.Calendar

/-- The clocks skip the wall times from `first` up to `past`, in seconds. -/
def Zone.Skips (z : Zone) (first past : Int) : Prop :=
  first < past ∧ ∃ u, first = u + z.offsetAt (u - 1) ∧ past = u + z.offsetAt u

namespace WallClock

/-- The offset by which the clock brings back a wall time, in seconds. -/
def offset? : WallClock → Int → Option Int
  | .zoned z, w => some (z.offsetOfWall w)
  | .host z, w => z.searchOffset? w
  | .unknown _, _ => none

/-- The edge of a gap from which on wall times are brought back by the new offset. -/
def edge : WallClock → Int → Int → Int
  | .host _, first, _ => first
  | _, _, past => past

/-- A gap swallows the wall times from `start` to `stop`, in milliseconds: it is at least as long
    as they are, and they start before and reach its edge. -/
def Swallows (c : WallClock) (start stop : Int) : Prop :=
  ∃ z first past, c.zone = .ok z ∧ z.Skips first past ∧ stop - start ≤ 1000 * (past - first) ∧
    start < 1000 * c.edge first past ∧ 1000 * c.edge first past ≤ stop

/-! ## Instants of wall times -/

theorem instantOfWall?_eq_some {c : WallClock} {w t : Int} (h : c.instantOfWall? w = some t) :
    ∃ o, c.offset? (w / 1000) = some o ∧ t = w - 1000 * o := by
  cases c with
  | zoned z => exact ⟨_, rfl, (Option.some.inj h).symm⟩
  | host z =>
    simp only [instantOfWall?, Zone.searchInstant] at h
    cases ho : z.searchOffset? (w / 1000) with
    | none => simp [ho, Except.toOption] at h
    | some o =>
      refine ⟨o, ho, ?_⟩
      simp only [ho] at h
      split at h
      · exact (Option.some.inj h).symm
      · cases h
  | unknown name => cases h

/-- Fields name the instant of their wall time by the offset at that wall time, or at the one 400
    years before. -/
theorem instantOf_eq_ok {c : WallClock} {v : Fields} {t : Int} (h : c.instantOf v = .ok t) :
    ∃ o, c.offset? ((cycleBack v).rolled / 1000) = some o ∧ t = v.rolled - 1000 * o := by
  obtain ⟨z, -, h⟩ := bind_eq_ok_iff.mp h
  rw [wall?_cycleBack] at h
  split at h
  · rename_i s hs
    obtain ⟨w, hw, hs⟩ := Option.bind_eq_some_iff.mp hs
    split at hw
    · obtain rfl := Option.some.inj hw
      obtain ⟨o, ho, hso⟩ := instantOfWall?_eq_some hs
      refine ⟨o, ho, ?_⟩
      rw [← Except.ok.inj h, hso, rolled_cycleBack]
      split <;> omega
    · cases hw
  · cases h

theorem interval_eq_ok {c : WallClock} {v : Fields} {g : Grain} {n : Int} {i : Interval}
    (h : c.interval v g n = .ok i) :
    c.instantOf v = .ok i.start ∧ c.instantOf (v.add g n) = .ok i.stop :=
  interval_eq_ok_iff.mp h

/-- A range starts before it stops just when the offset at its stop is ahead of the one at its start
    by less than the range is wide on the wall. -/
theorem interval_lt_iff {c : WallClock} {v : Fields} {g : Grain} {n : Int} {i : Interval}
    (h : c.interval v g n = .ok i) :
    ∃ o p, c.offset? ((cycleBack v).rolled / 1000) = some o ∧
      c.offset? ((cycleBack (v.add g n)).rolled / 1000) = some p ∧
      (i.start < i.stop ↔ 1000 * (p - o) < (v.add g n).rolled - v.rolled) := by
  obtain ⟨h1, h2⟩ := interval_eq_ok h
  obtain ⟨o, ho, h1⟩ := instantOf_eq_ok h1
  obtain ⟨p, hp, h2⟩ := instantOf_eq_ok h2
  refine ⟨o, p, ho, hp, ?_⟩
  omega

/-! ## The order of the ends -/

section

variable {c : WallClock} {z : Zone} (hz : c.zone = .ok z)
include hz

/-- Every wall time is brought back by an offset that the zone has at some instant. -/
theorem offset?_eq_offsetAt {w o : Int} (h : c.offset? w = some o) : ∃ u, o = z.offsetAt u := by
  cases c with
  | zoned y =>
    cases hz
    rw [← Option.some.inj h, Zone.offsetOfWall]
    split
    · exact ⟨_, rfl⟩
    · split <;> exact ⟨_, rfl⟩
  | host y =>
    cases hz
    rw [Zone.eq_searched_of_searchOffset? h]
    obtain ⟨p, d, rfl, ⟨-, rfl, h⟩ | ⟨-, rfl, h⟩⟩ := Zone.searched_cases z w
    · rcases h with ⟨-, h⟩ | ⟨-, h⟩ <;> exact ⟨_, h⟩
    · rcases h with ⟨-, h⟩ | ⟨-, h⟩ <;> exact ⟨_, h⟩
  | unknown name => cases hz

theorem offset?_bounded (hb : z.Bounded) {w o : Int} (h : c.offset? w = some o) :
    -86400 < o ∧ o < 86400 := by
  obtain ⟨u, rfl⟩ := offset?_eq_offsetAt hz h
  exact hb u

/-- Around one change both kinds of clock bring back wall times by the old offset up to a threshold
    and by the new one from there on. If the change makes a gap, the threshold is its edge. -/
theorem exists_threshold (hr : z.Regular) (u : Int) :
    ∃ turn a b threshold, z.Step (u - 86400) (u + 172800) turn a b ∧
      (-86400 < threshold - turn ∧ threshold - turn < 86400) ∧
      (a < b → threshold = c.edge (turn + a) (turn + b)) ∧
      ∀ w o, u ≤ w → w ≤ u + 86400 → c.offset? w = some o →
        o = if w < threshold then a else b := by
  obtain ⟨turn, hs⟩ := hr.exists_step (u - 86400)
  rw [show u - 86400 + 259200 = u + 172800 by omega] at hs
  have ha := hr.bounded (u - 86400)
  have hb := hr.bounded (u + 172800)
  revert hs ha hb
  generalize z.offsetAt (u - 86400) = a
  generalize z.offsetAt (u + 172800) = b
  intro hs ha hb
  cases c with
  | zoned y =>
    cases hz
    refine ⟨turn, a, b, turn + max a b, hs, by omega, ?_, ?_⟩
    · intro hab
      simp only [edge]
      omega
    · intro w o h1 h2 ho
      rw [← Option.some.inj ho]
      exact Zone.offsetOfWall_of_step ha hb (hs.mono (by omega) (by omega))
  | host y =>
    cases hz
    refine ⟨turn, a, b, turn + min a (b + 86400), hs, by omega, ?_, ?_⟩
    · intro hab
      simp only [edge]
      omega
    · intro w o h1 h2 ho
      rw [Zone.eq_searched_of_searchOffset? ho]
      exact Zone.searched_of_step hr ha hb (hs.mono (by omega) (by omega))
  | unknown name => cases hz

/-- Of two wall times at most a day apart the earlier one is brought back to the earlier instant,
    unless a gap swallows the time between them. -/
theorem lt_iff_not_swallows (hr : z.Regular) {start stop o p : Int}
    (ho : c.offset? (start / 1000) = some o) (hp : c.offset? (stop / 1000) = some p)
    (hlt : start < stop) (hday : stop ≤ start + 86400000) :
    start - 1000 * o < stop - 1000 * p ↔ ¬ c.Swallows start stop := by
  obtain ⟨turn, a, b, threshold, hs, ht, hedge, hoff⟩ := exists_threshold hz hr (start / 1000)
  have ho' := hoff _ _ (by omega) (by omega) ho
  have hp' := hoff _ _ (by omega) (by omega) hp
  constructor
  · rintro hlt' ⟨y, first, past, hy, ⟨hgap, u, hfirst, hpast⟩, hlong, h1, h2⟩
    obtain rfl : z = y := Except.ok.inj (hz.symm.trans hy)
    have hu : start / 1000 - 86400 < u ∧ u ≤ start / 1000 + 172800 := by
      have := hr.bounded (u - 1)
      have := hr.bounded u
      have : c.edge first past = first ∨ c.edge first past = past := by
        cases c <;> simp [edge]
      omega
    have hturns : z.Turns u := by
      rw [Zone.Turns]
      omega
    -- the gap is the one change of these days
    obtain rfl : u = turn := hs.eq_turn hu.1 hu.2 hturns
    obtain ⟨rfl, rfl⟩ := hs.offsets hu.1 hu.2
    have := hedge (by omega)
    rw [← hfirst, ← hpast] at this
    rw [if_pos (by omega)] at ho'
    rw [if_neg (by omega)] at hp'
    omega
  · intro hsw
    by_contra hnot
    have hab : a < b ∧ o = a ∧ p = b ∧ start / 1000 < threshold ∧ threshold ≤ stop / 1000 := by
      split_ifs at ho' hp' <;> omega
    obtain ⟨hab, rfl, rfl, h1, h2⟩ := hab
    obtain ⟨hbefore, hafter⟩ := hs.offsets (by omega) (by omega)
    have hth := hedge hab
    refine hsw ⟨z, turn + o, turn + p, hz, ⟨by omega, turn, ?_, ?_⟩, by omega, ?_, ?_⟩
    · rw [hbefore]
    · rw [hafter]
    · rw [← hth]
      omega
    · rw [← hth]
      omega

/-- No gap is as long as two days. -/
theorem not_swallows_of_wide (hr : z.Regular) {start stop : Int}
    (h : start + 2 * dayMillis ≤ stop) : ¬ c.Swallows start stop := by
  rintro ⟨y, first, past, hy, ⟨-, u, hfirst, hpast⟩, hlong, -, -⟩
  obtain rfl : z = y := Except.ok.inj (hz.symm.trans hy)
  have := hr.bounded (u - 1)
  have := hr.bounded u
  simp only [dayMillis] at h
  omega

/-! ## Ranges -/

variable {v : Fields} {g : Grain} {n : Int} {i : Interval}

/-- Where the clocks are never changed, a range starts before it stops as its fields do. -/
theorem interval_lt_of_not_turns (h : ∀ u, ¬ z.Turns u) (hlt : v.rolled < (v.add g n).rolled)
    (hi : c.interval v g n = .ok i) : i.start < i.stop := by
  obtain ⟨o, p, ho, hp, hiff⟩ := interval_lt_iff hi
  obtain ⟨u, rfl⟩ := offset?_eq_offsetAt hz ho
  obtain ⟨w, rfl⟩ := offset?_eq_offsetAt hz hp
  rw [hiff, Zone.offsetAt_eq h u w]
  omega

/-- A range of at most a day starts before it stops unless a gap swallows it. -/
theorem interval_lt_iff_of_short (hr : z.Regular) {m : Int} (hm : g.millis? = some m)
    (hpos : 0 < n * m) (hday : n * m ≤ dayMillis) (hi : c.interval v g n = .ok i) :
    i.start < i.stop ↔ ¬ c.Swallows (cycleBack v).rolled (cycleBack (v.add g n)).rolled := by
  obtain ⟨o, p, ho, hp, hiff⟩ := interval_lt_iff hi
  have hwidth := Fields.rolled_add_of_millis? v hm n
  have hyear : (v.add g n).year = v.year := by
    cases g with
    | year => cases hm
    | _ => rfl
  have hback : (cycleBack (v.add g n)).rolled = (cycleBack v).rolled + n * m := by
    rw [rolled_cycleBack, rolled_cycleBack, hyear, hwidth]
    split <;> omega
  simp only [dayMillis] at hday
  rw [hiff, ← lt_iff_not_swallows hz hr ho hp (by omega) (by omega), hback, hwidth]
  omega

/-- A range of two days or more starts before it stops, and no gap swallows it. -/
theorem interval_lt_of_wide (hr : z.Regular) (hwide : v.rolled + 2 * dayMillis ≤ (v.add g n).rolled)
    (hcycle : (v.add g n).rolled ≤ v.rolled + cycleMillis) (hi : c.interval v g n = .ok i) :
    i.start < i.stop ∧ ¬ c.Swallows (cycleBack v).rolled (cycleBack (v.add g n)).rolled := by
  obtain ⟨o, p, ho, hp, hiff⟩ := interval_lt_iff hi
  have ho := offset?_bounded hz hr.bounded ho
  have hp := offset?_bounded hz hr.bounded hp
  have hpos : 0 ≤ cycleMillis := by decide
  refine ⟨?_, ?_⟩
  · simp only [dayMillis] at hwide
    omega
  · rw [rolled_cycleBack, rolled_cycleBack]
    split <;> split
    · exact not_swallows_of_wide hz hr (by omega)
    · exact not_swallows_of_wide hz hr (by omega)
    · -- only the stop is taken 400 years back, to before the start
      rintro ⟨_, _, _, _, _, _, h3, h4⟩
      omega
    · exact not_swallows_of_wide hz hr hwide

end

end WallClock

end Timespan
