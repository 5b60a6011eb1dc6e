/-
  Zones whose clocks are changed seldom. Around any wall time such a zone knows at most one change,
  from an offset `a` to an offset `b` at a second `T`, and both ways of bringing the wall time back
  to an offset come down to a threshold: `T + max a b` for a zone known by name
  (`offsetOfWall_of_step`), `T + min a (b + 86400)` for the host's (`searched_of_step`).
-/
import Timespan.Zone.Search
import Mathlib.Tactic.SplitIfs

namespace Timespan.Zone

/-- The clocks are changed at the second `u`. -/
def Turns (z : Zone) (u : Int) : Prop := z.offsetAt (u - 1) ≠ z.offsetAt u

/-- Offsets are under 24 hours. -/
def Bounded (z : Zone) : Prop := ∀ u, -86400 < z.offsetAt u ∧ z.offsetAt u < 86400

/-- Offsets are under 24 hours, and changes of the clocks are more than three days apart. -/
structure Regular (z : Zone) : Prop where
  bounded : ∀ u, -86400 < z.offsetAt u ∧ z.offsetAt u < 86400
  spaced : ∀ u v, z.Turns u → z.Turns v → u < v → u + 259200 < v

/-- From `first` to `last` the clocks are changed at most once, at `turn` from `a` to `b`. -/
def Step (z : Zone) (first last turn a b : Int) : Prop :=
  ∀ u, first ≤ u → u ≤ last → z.offsetAt u = if u < turn then a else b

variable {z : Zone}

theorem offsetAt_eq_of_not_turns {u v : Int} (h : ∀ x, u < x → x ≤ v → ¬ z.Turns x)
    (huv : u ≤ v) : z.offsetAt v = z.offsetAt u := by
  obtain ⟨n, rfl⟩ : ∃ n : Nat, v = u + n := ⟨(v - u).toNat, by omega⟩
  clear huv
  induction n with
  | zero => simp
  | succ n ih =>
    have hn : z.offsetAt (u + n) = z.offsetAt u := ih fun x h1 h2 => h x h1 (by omega)
    have ht := h (u + n + 1) (by omega) (by omega)
    simp only [Turns, Int.add_sub_cancel, ne_eq, Decidable.not_not] at ht
    rw [← hn, ht, Int.natCast_succ, Int.add_assoc]

/-- Clocks that are never changed have one offset. -/
theorem offsetAt_eq (h : ∀ u, ¬ z.Turns u) (u v : Int) : z.offsetAt u = z.offsetAt v := by
  rcases Int.le_total u v with huv | huv
  · exact (offsetAt_eq_of_not_turns (fun x _ _ => h x) huv).symm
  · exact offsetAt_eq_of_not_turns (fun x _ _ => h x) huv

/-- Three days hold at most one change. -/
theorem Regular.exists_step (h : z.Regular) (u : Int) :
    ∃ turn, z.Step u (u + 259200) turn (z.offsetAt u) (z.offsetAt (u + 259200)) := by
  by_cases ht : ∃ t, u < t ∧ t ≤ u + 259200 ∧ z.Turns t
  · obtain ⟨t, h1, h2, ht⟩ := ht
    refine ⟨t, fun x hx1 hx2 => ?_⟩
    split
    · refine offsetAt_eq_of_not_turns (fun y hy1 hy2 hy => ?_) hx1
      have := h.spaced y t hy ht (by omega)
      omega
    · refine (offsetAt_eq_of_not_turns (fun y hy1 hy2 hy => ?_) hx2).symm
      have := h.spaced t y ht hy (by omega)
      omega
  · refine ⟨u + 259201, fun x hx1 hx2 => ?_⟩
    rw [if_pos (by omega)]
    exact offsetAt_eq_of_not_turns (fun y hy1 hy2 hy => ht ⟨y, hy1, by omega, hy⟩) hx1

theorem Step.mono {first last first' last' turn a b : Int} (h : z.Step first last turn a b)
    (h1 : first ≤ first') (h2 : last' ≤ last) : z.Step first' last' turn a b :=
  fun u hu1 hu2 => h u (by omega) (by omega)

/-- The clocks show the old offset up to the change and the new one from there on. -/
theorem Step.offsets {first last turn a b : Int} (h : z.Step first last turn a b)
    (h1 : first < turn) (h2 : turn ≤ last) : z.offsetAt (turn - 1) = a ∧ z.offsetAt turn = b := by
  have hbefore := h (turn - 1) (by omega) (by omega)
  have hafter := h turn (by omega) h2
  rw [if_pos (by omega)] at hbefore
  rw [if_neg (by omega)] at hafter
  exact ⟨hbefore, hafter⟩

/-- There is no other change. -/
theorem Step.eq_turn {first last turn a b u : Int} (h : z.Step first last turn a b)
    (h1 : first < u) (h2 : u ≤ last) (hu : z.Turns u) : u = turn := by
  have hbefore := h (u - 1) (by omega) (by omega)
  have hafter := h u (by omega) h2
  rw [Turns, hbefore, hafter] at hu
  split_ifs at hu <;> omega

section

variable {w turn a b : Int} (ha : -86400 < a ∧ a < 86400) (hb : -86400 < b ∧ b < 86400)
include ha hb

/-- Around one change, a wall time keeps the old offset until the clocks have shown both the end
    of the old one and the start of the new one. -/
theorem offsetOfWall_of_step (h : z.Step (w - 86400) (w + 86400) turn a b) :
    z.offsetOfWall w = if w < turn + max a b then a else b := by
  have h1 := h (w - 86400) (by omega) (by omega)
  have h2 := h (w + 86400) (by omega) (by omega)
  have h3 := h (w - a) (by omega) (by omega)
  have h4 := h (w - b) (by omega) (by omega)
  simp only [offsetOfWall, h1, h2]
  split_ifs at * <;> omega

end

/-! ## The host's search -/

theorem sub_of_shown? {u x : Int} (h : z.shown? u = some x) : x - u = z.offsetAt u := by
  rw [shown?] at h
  split at h
  · have hx := Option.some.inj h
    rw [localTime] at hx
    omega
  · cases h

/-- An offset leads from a wall time to an instant at which the clocks show it just when the offset
    is in force there. -/
theorem eq_iff_of_shown? {w d x : Int} (h : z.shown? (w - d) = some x) :
    x = w ↔ z.offsetAt (w - d) = d := by
  have := sub_of_shown? h
  omega

theorem eq_of_earlierPass? {w u v : Int} (h : z.earlierPass? w u = some v) :
    v = if z.offsetAt (w - z.offsetAt (u - 86400)) = z.offsetAt (u - 86400) then
      w - z.offsetAt (u - 86400) else u := by
  simp only [earlierPass?, Option.bind_eq_bind, Option.bind_eq_some_iff, Option.pure_def] at h
  obtain ⟨x, hx, y, hy, hv⟩ := h
  rw [sub_of_shown? hx] at hy hv
  simp only [eq_iff_of_shown? hy] at hv
  exact (Option.some.inj hv).symm

theorem eq_of_otherOffset? {w u v : Int} (h : z.otherOffset? w u = some v) :
    v = if z.offsetAt (w - z.offsetAt u) = z.offsetAt u then w - z.offsetAt u
      else max u (w - z.offsetAt u) := by
  simp only [otherOffset?, Option.bind_eq_bind, Option.bind_eq_some_iff, Option.pure_def] at h
  obtain ⟨x, hx, y, hy, hv⟩ := h
  rw [sub_of_shown? hx] at hy hv
  simp only [eq_iff_of_shown? hy] at hv
  exact (Option.some.inj hv).symm

/-- What the search comes to when it succeeds. The offset at `w` leads to a first instant. If the
    clocks do show `w` there, the offset of the day before is preferred, provided that it leads to `w`
    as well; if they do not, the offset at that instant is tried, and when it fails too, the later of
    the two instants decides. -/
def searched (z : Zone) (w : Int) : Int :=
  let first := z.offsetAt w
  if z.offsetAt (w - first) = first then
    let other := z.offsetAt (w - first - 86400)
    if z.offsetAt (w - other) = other then other else first
  else
    let other := z.offsetAt (w - first)
    if z.offsetAt (w - other) = other then other else z.offsetAt (max (w - first) (w - other))

theorem eq_searched_of_searchOffset? {w o : Int} (h : z.searchOffset? w = some o) :
    o = z.searched w := by
  simp only [searchOffset?, Option.bind_eq_bind, Option.bind_eq_some_iff, Option.pure_def] at h
  obtain ⟨x, hx, y, hy, h⟩ := h
  rw [sub_of_shown? hx] at hy h
  simp only [eq_iff_of_shown? hy] at h
  simp only [searched]
  split at h
  · rename_i hp
    obtain ⟨v, hv, ho⟩ := Option.bind_eq_some_iff.mp h
    rw [if_pos hp, ← Option.some.inj ho, eq_of_earlierPass? hv]
    split
    · assumption
    · exact hp
  · rename_i hp
    obtain ⟨v, hv, ho⟩ := Option.bind_eq_some_iff.mp h
    rw [if_neg hp, ← Option.some.inj ho, eq_of_otherOffset? hv]
    split
    · assumption
    · rfl

/-- The four ways to what is found. -/
theorem searched_cases (z : Zone) (w : Int) :
    ∃ p d : Int, p = z.offsetAt w ∧
      (z.offsetAt (w - p) = p ∧ d = z.offsetAt (w - p - 86400) ∧
          (z.offsetAt (w - d) = d ∧ z.searched w = d ∨
            z.offsetAt (w - d) ≠ d ∧ z.searched w = p) ∨
        z.offsetAt (w - p) ≠ p ∧ d = z.offsetAt (w - p) ∧
          (z.offsetAt (w - d) = d ∧ z.searched w = d ∨
            z.offsetAt (w - d) ≠ d ∧ z.searched w = z.offsetAt (max (w - p) (w - d)))) := by
  by_cases hp : z.offsetAt (w - z.offsetAt w) = z.offsetAt w
  · refine ⟨_, _, rfl, Or.inl ⟨hp, rfl, ?_⟩⟩
    simp only [searched, if_pos hp]
    split
    · exact Or.inl ⟨‹_›, rfl⟩
    · exact Or.inr ⟨‹_›, rfl⟩
  · refine ⟨_, _, rfl, Or.inr ⟨hp, rfl, ?_⟩⟩
    simp only [searched, if_neg hp]
    split
    · exact Or.inl ⟨‹_›, rfl⟩
    · exact Or.inr ⟨‹_›, rfl⟩

/-- The three days before a change of the clocks all have the offset from before it. -/
theorem Regular.offsetAt_before_turn (hr : z.Regular) {u turn : Int} (h1 : u < turn)
    (h2 : turn ≤ u + 259200) (ht : z.Turns turn) : z.offsetAt u = z.offsetAt (turn - 1) := by
  refine (offsetAt_eq_of_not_turns (fun x hx1 hx2 hx => ?_) (by omega)).symm
  have := hr.spaced x turn hx ht (by omega)
  omega

/-- Around one change, the host's search keeps the old offset for the wall times that the clocks
    showed before the change. Of an overlap longer than a day it misses the part that lies more
    than a day after the change. -/
theorem searched_of_step (hr : z.Regular) {w turn a b : Int}
    (ha : -86400 < a ∧ a < 86400) (hb : -86400 < b ∧ b < 86400)
    (h : z.Step (w - 86400) (w + 86400) turn a b) :
    z.searched w = if w < turn + min a (b + 86400) then a else b := by
  obtain ⟨p, d, hp, hcases⟩ := searched_cases z w
  have hpb := hr.bounded w
  rw [← hp] at hpb
  rw [h w (by omega) (by omega)] at hp
  have hu := h (w - p) (by omega) (by omega)
  rcases hcases with ⟨h1, hd, h2⟩ | ⟨h1, hd, h2⟩
  · have hdb := hr.bounded (w - p - 86400)
    rw [← hd] at hdb
    have hv := h (w - d) (by omega) (by omega)
    rw [hu] at h1
    rw [hv] at h2
    -- the day before is looked at outside the window only if it lies before the change
    have hnear : w - 86400 ≤ w - p - 86400 → d = if w - p - 86400 < turn then a else b := by
      intro hle
      rw [hd, h _ hle (by omega)]
    have hfar : w - 86400 < turn → turn ≤ w + 86400 → a ≠ b → w - p - 86400 < turn → d = a := by
      intro ht1 ht2 hab hlt
      obtain ⟨hbefore, hafter⟩ := h.offsets ht1 ht2
      have ht : z.Turns turn := by rwa [Turns, hbefore, hafter]
      rw [hd, hr.offsetAt_before_turn hlt (by omega) ht, hbefore]
    clear hv hu hd
    split_ifs at * <;> omega
  · have hdb := hr.bounded (w - p)
    rw [← hd] at hdb
    have hv := h (w - d) (by omega) (by omega)
    have hm := h (max (w - p) (w - d)) (by omega) (by omega)
    rw [hu] at h1 hd
    rw [hv, hm] at h2
    clear hv hm hu hpb hdb
    split_ifs at * <;> omega

end Timespan.Zone
