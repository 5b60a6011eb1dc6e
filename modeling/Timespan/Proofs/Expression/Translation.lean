/-
  Constant offsets. A zone whose clocks are always `o` seconds ahead of UTC has the ranges of UTC at
  the present instant `o` seconds later, moved back by as much: keywords, literals, points,
  durations and operators all move with the clock (`resolve_fixed_offset`).
-/
import Timespan.Proofs.Clock.Fixed
import Timespan.Proofs.Expression.Resolution
import Timespan.Proofs.Term.Form
import Timespan.Zone.Atlas

namespace Timespan

open Timespan.Calendar

variable {c d : WallClock} {t δ width : Int} {text : List Char}

/-! ## Terms -/

namespace Term

theorem Names.of_embeds (h : c.Embeds d t δ) {v : Fields} {g : Grain} {n : Int}
    (hn : Names c t text v g n) : Names d (t + δ) text v g n := by
  cases hn with
  | period hform hword hnow hstart => exact .period hform hword (h.fieldsAt _ hnow) hstart
  | literal hform hgrain hnow hvalid => exact .literal hform hgrain (h.fieldsAt _ hnow) hvalid

/-- A term that resolves by the one clock resolves by the other, moved with the clock. -/
theorem resolve_of_embeds (h : c.Embeds d t δ) {r : Term} (hr : resolve c t text = .ok r) :
    resolve d (t + δ) text = .ok (r.shift δ) := by
  cases r with
  | interval i =>
    obtain ⟨v, g, n, hn, hi⟩ := resolve_eq_interval_iff.mp hr
    exact resolve_eq_interval_iff.mpr ⟨v, g, n, hn.of_embeds h, h.interval hi⟩
  | duration m => exact resolve_eq_duration_iff.mpr (resolve_eq_duration_iff.mp hr)
  | now s =>
    obtain ⟨hword, rfl⟩ := resolve_eq_now_iff.mp hr
    exact resolve_eq_now_iff.mpr ⟨hword, rfl⟩

end Term

theorem Keyword.resolveWord_of_agrees (h : c.Agrees d t δ) (word : List Char) :
    resolveWord d (t + δ) word = (resolveWord c t word).map (Term.shift δ) := by
  rw [resolveWord, resolveWord]
  cases ofName? word with
  | none => rfl
  | some k =>
    cases k with
    | now => rfl
    | period r p =>
      simp only [resolve, periodInterval, h.fieldsAt, h.interval, map_bind, map_map]
      rfl

theorem Literal.resolve_of_agrees (h : c.Agrees d t δ) (l : Literal) :
    l.resolve d (t + δ) text = (l.resolve c t text).map (Interval.shift δ) := by
  simp only [resolve, h.fieldsAt, map_bind]
  refine bind_congr fun now => ?_
  cases l.grain? with
  | none => rfl
  | some g =>
    cases (l.complete now).fault? with
    | none => exact h.interval _ g 1
    | some fault => rfl

theorem Term.resolve_of_agrees (h : c.Agrees d t δ) (text : List Char) :
    resolve d (t + δ) text = (resolve c t text).map (shift δ) := by
  rw [resolve_eq, resolve_eq]
  cases form text with
  | word w => exact Keyword.resolveWord_of_agrees h w
  | literal l =>
    simp only [Literal.resolve_of_agrees h, map_map]
    rfl
  | duration f =>
    simp only [map_map]
    rfl
  | unknown => rfl

/-! ## Expressions -/

namespace Expression

variable {e : Expression}

theorem resolve_of_embeds (h : c.Embeds d t δ) {s : Span} (hs : e.resolve c t width = .ok s) :
    e.resolve d (t + δ) width = .ok (s.shift δ) := by
  obtain ⟨left?, right?, hl, hr, hs⟩ := resolve_eq_ok_iff.mp hs
  have hterm : ∀ l u, Term.resolve c t l = .ok u → Term.resolve d (t + δ) l = .ok (u.shift δ) :=
    fun l u hu => Term.resolve_of_embeds h hu
  refine resolve_eq_ok_iff.mpr ⟨_, _, mapM_of_ok hterm hl, mapM_of_ok hterm hr, ?_⟩
  rw [Span.ofTerms_shift, hs]
  rfl

theorem resolve_of_agrees (h : c.Agrees d t δ) (e : Expression) :
    e.resolve d (t + δ) width = (e.resolve c t width).map (Span.shift δ) := by
  have hterms (a? : Option (List Char)) : a?.mapM (Term.resolve d (t + δ)) =
      (a?.mapM (Term.resolve c t)).map (Option.map (Term.shift δ)) :=
    mapM_of_map (Term.resolve_of_agrees h) a?
  simp [resolve, hterms]

end Expression

/-! ## Texts -/

variable {atlas : Atlas} {config : Config} {clock o : Int} {z : Zone}

/-- The settings of UTC at the present instant moved by `δ`, all else being equal. -/
def Config.utcAfter (config : Config) (clock δ : Int) : Config :=
  { utc := true, now? := some (config.now?.getD clock + δ), width := config.width }

theorem resolve_utcAfter_of_agrees {δ : Int}
    (h : (atlas.clock config.mode).Agrees WallClock.utc (config.now?.getD clock) δ)
    (text? : Option String) :
    resolve atlas (config.utcAfter clock δ) clock text? =
      (resolve atlas config clock text?).map (Span.shift δ) := by
  rw [resolve, resolve]
  cases expressionText? text? with
  | none => rfl
  | some s =>
    simp only [resolveExpression_eq, map_bind]
    exact bind_congr fun e => e.resolve_of_agrees h

/-- Wherever a zone whose clocks are always `o` seconds ahead has a range, it is the one that UTC
    has at the present instant `o` seconds later, moved back by `o` seconds. If the zone is known by
    name and both present instants lie in the calendar, the two also fail together, for the same
    cause. -/
theorem resolve_fixed_offset (hzone : (atlas.clock config.mode).zone = .ok z)
    (hfixed : ∀ u, z.offsetAt u = o) (text? : Option String) :
    (∀ s, resolve atlas config clock text? = .ok s →
      ∃ u, resolve atlas (config.utcAfter clock (1000 * o)) clock text? = .ok u ∧
        s = u.shift (-(1000 * o))) ∧
    (atlas.clock config.mode = .zoned z → inCalendar (config.now?.getD clock) = true →
      inCalendar (config.now?.getD clock + 1000 * o) = true →
      resolve atlas config clock text? =
        (resolve atlas (config.utcAfter clock (1000 * o)) clock text?).map
          (Span.shift (-(1000 * o)))) := by
  refine ⟨fun s hs => ?_, fun hnamed hin hin' => ?_⟩
  · -- both runs read the same expression, which does not depend on the clock
    obtain ⟨text, e, htext, hne, hname, hread, he⟩ := resolve_eq_ok_iff.mp hs
    have hutc := Expression.resolve_of_embeds
      (WallClock.embeds_of_fixed hfixed hzone (config.now?.getD clock)) he
    exact ⟨s.shift (1000 * o), resolve_eq_ok_iff.mpr ⟨text, e, htext, hne, hname, hread, hutc⟩,
      (s.shift_shift_neg _).symm⟩
  · have hagrees := hnamed ▸ WallClock.agrees_of_fixed hfixed hin hin'
    rw [resolve_utcAfter_of_agrees hagrees, map_map]
    cases resolve atlas config clock text? with
    | error _ => rfl
    | ok s => exact congrArg Except.ok (s.shift_shift_neg _).symm

/-- Twelve hours behind UTC, the first instant of 1970 is still in the year before. -/
theorem resolve_fixed_offset_day_before :
    let atlas := Atlas.ofHost "UTC0"
    let config : Config := { zone? := some "Etc/GMT+12", now? := some 0 }
    let z := Zone.ofSchedule Zone.gmtMinus12
    atlas.clock config.mode = .zoned z ∧ (∀ u, z.offsetAt u = -43200) ∧
      resolve atlas config 0 (some "today") = .ok ⟨some (-43200000), some 43200000⟩ ∧
      (∃ u, resolve atlas (config.utcAfter 0 (1000 * -43200)) 0 (some "today") = .ok u ∧
        ⟨some (-43200000), some 43200000⟩ = u.shift (-(1000 * -43200))) ∧
      resolve atlas config 0 (some "0001-01-01 00 <") =
        (resolve atlas (config.utcAfter 0 (1000 * -43200)) 0 (some "0001-01-01 00 <")).map
          (Span.shift (-(1000 * -43200))) := by
  intro atlas config z
  have hclock : atlas.clock config.mode = .zoned z := by rfl
  have hzone : (atlas.clock config.mode).zone = .ok z := by rw [hclock]; rfl
  have hfixed : ∀ u, z.offsetAt u = -43200 := fun _ => rfl
  have htoday : resolve atlas config 0 (some "today") =
      .ok ⟨some (-43200000), some 43200000⟩ := by decide +kernel
  obtain ⟨hspan, -⟩ := resolve_fixed_offset hzone hfixed (some "today")
  obtain ⟨-, hboth⟩ := resolve_fixed_offset hzone hfixed (some "0001-01-01 00 <")
  exact ⟨hclock, hfixed, htoday, hspan _ htoday, hboth hclock (by decide) (by decide)⟩

end Timespan
