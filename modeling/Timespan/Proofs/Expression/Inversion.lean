/-
  Which ranges run backwards, and which are open. In UTC the terms themselves never run backwards:
  calendar ranges start before they stop, and durations are not negative. So only a range written
  from one point to an earlier one does, and a range is open only on a side without a term
  (`resolve_inverted_iff`).
-/
import Timespan.Proofs.Expression.Resolution
import Timespan.Proofs.Span
import Timespan.Proofs.Term.Nonempty
import Timespan.Zone.Atlas

namespace Timespan

open Text

/-! ## Terms -/

theorem DurationUnit.millis_pos (u : DurationUnit) : 0 < u.millis := by
  cases u <;> decide

theorem DurationForm.millis_nonneg {f : DurationForm} {d : Int} (h : f.millis = .ok d) : 0 ≤ d := by
  rw [DurationForm.millis] at h
  split at h
  · rw [mapError_eq_ok_iff, Duration.millis] at h
    split at h
    · rename_i u _
      cases h
      exact Int.mul_nonneg (Int.natCast_nonneg _) (Int.le_of_lt u.millis_pos)
    · cases h
  · cases h

theorem Term.forward_of_resolve_utc {origin : Int} {text : List Char} {t : Term}
    (h : Term.resolve WallClock.utc origin text = .ok t) : t.Forward := by
  cases t with
  | interval i => exact Int.le_of_lt (Term.resolve_utc_start_lt_stop h)
  | duration d =>
    obtain ⟨f, -, hf⟩ := Term.resolve_eq_duration_iff.mp h
    exact DurationForm.millis_nonneg hf
  | now t => trivial

/-! ## Expressions -/

namespace Expression

/-- The operator of an expression asks for the range from one term to another. -/
def IsRange (e : Expression) : Prop := ∃ op, e.operator? = some op ∧ op.IsRange

/-- A range from one point to another that stops before the first starts. -/
def Backwards (c : WallClock) (origin : Int) (e : Expression) : Prop :=
  e.IsRange ∧ ∃ l r t u i j, e.left? = some l ∧ e.right? = some r ∧
    Term.resolve c origin l = .ok t ∧ Term.resolve c origin r = .ok u ∧
    t.point? = some i ∧ u.point? = some j ∧ j.stop < i.start

variable {c : WallClock} {origin width : Int} {e : Expression} {s : Span}

theorem open_iff_of_resolve (h : e.resolve c origin width = .ok s) :
    ¬ (s.start? = none ∧ s.stop? = none) ∧ (s.start? = none ↔ e.IsRange ∧ e.left? = none) ∧
      (s.stop? = none ↔ e.IsRange ∧ e.right? = none) := by
  obtain ⟨left?, right?, hl, hr, hs⟩ := resolve_eq_ok_iff.mp h
  have hmakes := Span.ofTerms_eq_ok_iff.mp hs
  refine ⟨hmakes.exists_bound, ?_, ?_⟩
  · rw [hmakes.start?_eq_none_iff, eq_none_iff_of_mapM hl]
    rfl
  · rw [hmakes.stop?_eq_none_iff, eq_none_iff_of_mapM hr]
    rfl

theorem inverted_iff_of_resolve_utc (hwidth : 0 ≤ width)
    (h : e.resolve WallClock.utc origin width = .ok s) :
    s.Inverted ↔ e.Backwards WallClock.utc origin := by
  obtain ⟨left?, right?, hl, hr, hs⟩ := resolve_eq_ok_iff.mp h
  have hleft : ∀ t ∈ left?, t.Forward := fun t ht => by
    obtain ⟨l, -, hl⟩ := (eq_some_iff_of_mapM hl).mp ht
    exact Term.forward_of_resolve_utc hl
  have hright : ∀ t ∈ right?, t.Forward := fun t ht => by
    obtain ⟨r, -, hr⟩ := (eq_some_iff_of_mapM hr).mp ht
    exact Term.forward_of_resolve_utc hr
  rw [(Span.ofTerms_eq_ok_iff.mp hs).inverted_iff hleft hright hwidth, Backwards]
  refine and_congr_right fun _ => ?_
  simp only [eq_some_iff_of_mapM hl, eq_some_iff_of_mapM hr]
  constructor
  · rintro ⟨t, u, i, j, ⟨l, hl, ht⟩, ⟨r, hr, hu⟩, hpoints⟩
    exact ⟨l, r, t, u, i, j, hl, hr, ht, hu, hpoints⟩
  · rintro ⟨l, r, t, u, i, j, hl, hr, ht, hu, hpoints⟩
    exact ⟨t, u, i, j, ⟨l, hl, ht⟩, ⟨r, hr, hu⟩, hpoints⟩

end Expression

/-! ## Texts -/

/-- A text that has a range is an expression, and its range is open on a side just when the
    expression asks for the range between its terms and has none on that side, which is never so on
    both. In UTC, with a default width that is not negative, the range runs backwards just when the
    expression is written from one point to an earlier one. -/
theorem resolve_inverted_iff {atlas : Atlas} {config : Config} {clock : Int}
    {text? : Option String} {s : Span} (h : resolve atlas config clock text? = .ok s) :
    ∃ text e, text? = some text ∧ Expression.read (tidyPlain text.toList) = .ok e ∧
      (atlas.clock config.mode = WallClock.utc → 0 ≤ config.width →
        (s.Inverted ↔ e.Backwards WallClock.utc (config.now?.getD clock))) ∧
      ¬ (s.start? = none ∧ s.stop? = none) ∧ (s.start? = none ↔ e.IsRange ∧ e.left? = none) ∧
      (s.stop? = none ↔ e.IsRange ∧ e.right? = none) := by
  obtain ⟨text, e, htext, -, -, hread, he⟩ := resolve_eq_ok_iff.mp h
  refine ⟨text, e, htext, hread, fun hutc hwidth => ?_, Expression.open_iff_of_resolve he⟩
  rw [hutc] at he
  exact Expression.inverted_iff_of_resolve_utc hwidth he

/-- From the start of 2021 back to the end of 2019. -/
theorem resolve_inverted_iff_years_back :
    let config : Config := { utc := true, now? := some 0 }
    resolve (Atlas.ofHost "UTC0") config 0 (some "2021 -> 2019") =
        .ok ⟨some 1609459200000, some 1577836800000⟩ ∧
      ∃ e, Expression.read (tidyPlain "2021 -> 2019".toList) = .ok e ∧
        e.Backwards WallClock.utc 0 := by
  intro config
  have h : resolve (Atlas.ofHost "UTC0") config 0 (some "2021 -> 2019") =
      .ok ⟨some 1609459200000, some 1577836800000⟩ := by decide +kernel
  obtain ⟨_, e, ⟨⟩, hread, hinverted, -⟩ := resolve_inverted_iff h
  have hback := hinverted (Atlas.clock_utc _) (by decide)
  exact ⟨h, e, hread, hback.mp (Span.inverted_iff.mpr (by decide))⟩

end Timespan
