/-
  Overlaps. When the clocks are put back by `d` seconds they show the last `d` seconds before the
  change a second time. In a regular zone nothing else makes a wall time appear twice
  (`exists_putBack_of_localTime_eq`), so what a wall time stands for is settled by its passes: a zone
  known by name takes the first (`offsetOfWall_first`), and so does the host, save for wall times
  a day or more into an overlap, of which it takes the last (`searched_first`). A wall time that is
  shown once divides the time line: the clocks show less before it and more after it
  (`le_localTime_iff_of_once`).
-/
import Timespan.Proofs.Zone.Change
import Mathlib.Tactic.ByContra

namespace Timespan.Zone

/-- At the second `turn` the clocks are put back by `d` seconds. -/
def PutBack (z : Zone) (turn d : Int) : Prop :=
  0 < d ∧ z.offsetAt (turn - 1) = z.offsetAt turn + d

/-- The second `u` lies in the second pass of an overlap of `d` seconds. -/
def SecondPass (z : Zone) (u d : Int) : Prop :=
  ∃ turn, z.PutBack turn d ∧ turn ≤ u ∧ u < turn + d

/-- The wall time `w`, in seconds, lies a day or more into an overlap. -/
def DeepInOverlap (z : Zone) (w : Int) : Prop :=
  ∃ turn d, z.PutBack turn d ∧ z.localTime turn + 86400 ≤ w ∧ w < z.localTime turn + d

variable {z : Zone} {turn d u : Int}

theorem PutBack.turns (h : z.PutBack turn d) : z.Turns turn := by
  obtain ⟨hpos, hd⟩ := h
  rw [Turns]
  omega

/-- The three days from a change of the clocks on all have the offset from after it. -/
theorem Regular.offsetAt_after_turn (hr : z.Regular) (h1 : turn ≤ u) (h2 : u ≤ turn + 259200)
    (ht : z.Turns turn) : z.offsetAt u = z.offsetAt turn := by
  refine offsetAt_eq_of_not_turns (fun x hx1 hx2 hx => ?_) h1
  have := hr.spaced turn x ht hx hx1
  omega

section

variable (hr : z.Regular)
include hr

theorem PutBack.lt (h : z.PutBack turn d) : d < 172800 := by
  obtain ⟨-, hd⟩ := h
  have := hr.bounded (turn - 1)
  have := hr.bounded turn
  omega

theorem PutBack.offsetAt_before (h : z.PutBack turn d) (h1 : u < turn) (h2 : turn ≤ u + 259200) :
    z.offsetAt u = z.offsetAt turn + d := by
  rw [hr.offsetAt_before_turn h1 h2 h.turns, h.2]

theorem PutBack.offsetAt_after (h : z.PutBack turn d) (h1 : turn ≤ u) (h2 : u < turn + d) :
    z.offsetAt u = z.offsetAt turn := by
  have := h.lt hr
  exact hr.offsetAt_after_turn h1 (by omega) h.turns

/-- In the second pass the clocks show what they showed in the first. -/
theorem PutBack.localTime_sub (h : z.PutBack turn d) (h1 : turn ≤ u) (h2 : u < turn + d) :
    z.localTime (u - d) = z.localTime u := by
  have := h.lt hr
  have hbefore := h.offsetAt_before hr (show u - d < turn by omega) (by omega)
  have hafter := h.offsetAt_after hr h1 h2
  simp only [localTime]
  omega

/-- Only an overlap makes the clocks show a wall time twice. -/
theorem exists_putBack_of_localTime_eq {s : Int} (hlt : s < u)
    (h : z.localTime s = z.localTime u) : ∃ turn, z.PutBack turn (u - s) ∧ s < turn ∧ turn ≤ u := by
  obtain ⟨turn, hs⟩ := hr.exists_step s
  have hb := hr.bounded s
  have hb' := hr.bounded u
  simp only [localTime] at h
  have hoff := hs u (by omega) (by omega)
  -- had the clocks not changed in between, they would have moved on
  have hbetween : s < turn ∧ turn ≤ u := by
    have hoff' := hs s (by omega) (by omega)
    split_ifs at hoff hoff' <;> omega
  rw [if_neg (by omega)] at hoff
  obtain ⟨hbefore, hafter⟩ := hs.offsets hbetween.1 (by omega)
  exact ⟨turn, ⟨by omega, by omega⟩, hbetween⟩

theorem secondPass_of_localTime_eq {s : Int} (hlt : s < u) (h : z.localTime s = z.localTime u) :
    z.SecondPass u (u - s) := by
  obtain ⟨turn, hback, h1, h2⟩ := exists_putBack_of_localTime_eq hr hlt h
  exact ⟨turn, hback, h2, by omega⟩

/-- No wall time is shown three times. -/
theorem SecondPass.not_before {e : Int} (h : z.SecondPass u d) : ¬ z.SecondPass (u - d) e := by
  rintro ⟨turn', hback', h1', h2'⟩
  obtain ⟨turn, hback, h1, h2⟩ := h
  have hsub := hback.localTime_sub hr h1 h2
  have hsub' := hback'.localTime_sub hr h1' h2'
  have := hr.bounded (u - d - e)
  have := hr.bounded u
  have := hr.spaced turn' turn hback'.turns hback.turns
  simp only [localTime] at hsub hsub'
  omega

/-! ## The first pass -/

/-- The earliest second at which the clocks show what they show at `u`: the one of the first pass
    where `u` lies in a second, else `u` itself. -/
theorem eq_of_first {s : Int} (hs : z.localTime s = z.localTime u)
    (hfirst : ∀ r, z.localTime r = z.localTime u → s ≤ r) :
    (∀ d, z.SecondPass u d → s = u - d) ∧ ((∀ d, ¬ z.SecondPass u d) → s = u) := by
  constructor
  · intro d hd
    obtain ⟨turn, hback, h1, h2⟩ := hd
    have hsub := hback.localTime_sub hr h1 h2
    rcases Int.lt_or_eq_of_le (hfirst _ hsub) with hlt | heq
    · have := secondPass_of_localTime_eq hr hlt (hs.trans hsub.symm)
      exact absurd this (SecondPass.not_before hr ⟨turn, hback, h1, h2⟩)
    · exact heq
  · intro hnone
    rcases Int.lt_or_eq_of_le (hfirst u rfl) with hlt | heq
    · exact absurd (secondPass_of_localTime_eq hr hlt hs) (hnone _)
    · exact heq

/-- Around a wall time the clocks are changed at most once. -/
theorem Regular.exists_step_around (w : Int) :
    ∃ turn a b, (-86400 < a ∧ a < 86400) ∧ (-86400 < b ∧ b < 86400) ∧
      z.Step (w - 86400) (w + 86400) turn a b := by
  obtain ⟨turn, hs⟩ := hr.exists_step (w - 86400)
  exact ⟨turn, _, _, hr.bounded _, hr.bounded _, hs.mono (by omega) (by omega)⟩

/-- The instants that show a wall time lie within a day of it. -/
theorem Step.eq_of_shown {w a b : Int} (h : z.Step (w - 86400) (w + 86400) turn a b)
    (hu : z.localTime u = w) : u = w - if u < turn then a else b := by
  have := hr.bounded u
  rw [localTime] at hu
  have := h u (by omega) (by omega)
  omega

/-- A zone known by name brings a wall time that its clocks show back to the first pass. -/
theorem offsetOfWall_first {w : Int} (hu : z.localTime u = w) :
    z.localTime (w - z.offsetOfWall w) = w ∧
      ∀ s, z.localTime s = w → w - z.offsetOfWall w ≤ s := by
  obtain ⟨turn, a, b, ha, hb, hs⟩ := hr.exists_step_around w
  have ho := offsetOfWall_of_step ha hb hs
  have hu' := hs.eq_of_shown hr hu
  constructor
  · have hat := hs (w - z.offsetOfWall w) (by split_ifs at ho <;> omega)
      (by split_ifs at ho <;> omega)
    rw [localTime]
    split_ifs at * <;> omega
  · intro s h
    have hs' := hs.eq_of_shown hr h
    split_ifs at * <;> omega

/-- The host does too, as far as it looks. -/
theorem searched_first {w : Int} (hu : z.localTime u = w) :
    z.localTime (w - z.searched w) = w ∧
      (¬ z.DeepInOverlap w → ∀ s, z.localTime s = w → w - z.searched w ≤ s) ∧
      (z.DeepInOverlap w → ∀ s, z.localTime s = w → s ≤ w - z.searched w) := by
  obtain ⟨turn, a, b, ha, hb, hs⟩ := hr.exists_step_around w
  have ho := searched_of_step hr ha hb hs
  have hu' := hs.eq_of_shown hr hu
  refine ⟨?_, ?_, ?_⟩
  · have hat := hs (w - z.searched w) (by split_ifs at ho <;> omega) (by split_ifs at ho <;> omega)
    rw [localTime]
    split_ifs at * <;> omega
  · intro hdeep s h
    have hs' := hs.eq_of_shown hr h
    by_contra hlt
    have hpass : s < turn ∧ turn ≤ w - b ∧ z.searched w = b ∧ b < a := by
      split_ifs at * <;> omega
    obtain ⟨hbefore, hafter⟩ := hs.offsets (by omega) (by omega)
    refine hdeep ⟨turn, a - b, ⟨by omega, by omega⟩, ?_, ?_⟩ <;> rw [localTime, hafter]
    · split_ifs at * <;> omega
    · split_ifs at * <;> omega
  · rintro ⟨turn', d, hback, h1, h2⟩ s h
    have hs' := hs.eq_of_shown hr h
    have := hr.bounded (turn' - 1)
    have := hr.bounded turn'
    have hd := hback.2
    simp only [localTime] at h1 h2
    obtain rfl : turn' = turn := hs.eq_turn (by omega) (by omega) hback.turns
    obtain ⟨hbefore, hafter⟩ := hs.offsets (by omega) (by omega)
    split_ifs at * <;> omega

/-! ## Wall times shown once -/

/-- A change of the clocks from `w` or more to `w` or less shows `w` in both its passes. -/
theorem exists_twice_of_crossing {w : Int} (h1 : w ≤ z.localTime (turn - 1))
    (h2 : z.localTime turn ≤ w) :
    ∃ r r', r < r' ∧ z.localTime r = w ∧ z.localTime r' = w := by
  simp only [localTime] at h1 h2
  have hback : z.PutBack turn (z.offsetAt (turn - 1) - z.offsetAt turn) := ⟨by omega, by omega⟩
  have hin : turn ≤ w - z.offsetAt turn ∧
      w - z.offsetAt turn < turn + (z.offsetAt (turn - 1) - z.offsetAt turn) := by omega
  have hafter := hback.offsetAt_after hr hin.1 hin.2
  have hsecond : z.localTime (w - z.offsetAt turn) = w := by
    rw [localTime]
    omega
  have hfirst := hback.localTime_sub hr hin.1 hin.2
  exact ⟨_, _, by have := hback.1; omega, hfirst.trans hsecond, hsecond⟩

/-- Clocks that have reached a wall time, and show it once at most, never come back to it. -/
theorem lt_localTime_of_once {s t w : Int}
    (honce : ∀ r r', z.localTime r = w → z.localTime r' = w → r = r')
    (hs : w ≤ z.localTime s) (hst : s < t) : w < z.localTime t := by
  have hstep : ∀ u, w ≤ z.localTime u → w < z.localTime (u + 1) := by
    intro u hu
    by_contra hle
    obtain ⟨r, r', hlt, hw, hw'⟩ := exists_twice_of_crossing hr (show w ≤ z.localTime (u + 1 - 1) by
      rwa [Int.add_sub_cancel]) (by omega)
    have := honce r r' hw hw'
    omega
  have hrun : ∀ n : Nat, w < z.localTime (s + 1 + n) := by
    intro n
    induction n with
    | zero =>
      rw [show s + 1 + ((0 : Nat) : Int) = s + 1 by omega]
      exact hstep s hs
    | succ n ih =>
      rw [show s + 1 + ((n + 1 : Nat) : Int) = s + 1 + n + 1 by omega]
      exact hstep _ (Int.le_of_lt ih)
  have := hrun (t - (s + 1)).toNat
  rwa [show s + 1 + ((t - (s + 1)).toNat : Int) = t by omega] at this

/-- A wall time that is shown once, at `s`, divides the time line. -/
theorem le_localTime_iff_of_once {s w : Int} (hs : z.localTime s = w)
    (honce : ∀ r, z.localTime r = w → r = s) (t : Int) : w ≤ z.localTime t ↔ s ≤ t := by
  have honce' : ∀ r r', z.localTime r = w → z.localTime r' = w → r = r' := fun r r' h h' =>
    (honce r h).trans (honce r' h').symm
  constructor
  · intro h
    by_contra hlt
    have := lt_localTime_of_once hr honce' h (show t < s by omega)
    omega
  · intro h
    rcases Int.lt_or_eq_of_le h with hlt | rfl
    · exact Int.le_of_lt (lt_localTime_of_once hr honce' (Int.le_of_eq hs.symm) hlt)
    · exact Int.le_of_eq hs.symm

end

end Timespan.Zone
