/-
  Durations and the default width make ranges wider. A range that is widened holds what it widens,
  longer durations and a larger width make a range that holds the one before, and whether there is
  a range at all, or for which cause not, is settled by the operator and the kinds of the terms
  (`Span.ofTerms_widening`).
-/
import Timespan.Proofs.Span
import Timespan.Vacancy

namespace Timespan

namespace Term

/-- The kinds of terms. -/
inductive Kind where
  | interval | duration | now
deriving DecidableEq, Repr

def kind : Term → Kind
  | .interval _ => .interval
  | .duration _ => .duration
  | .now _ => .now

/-- A term of a kind with nothing but zeros in it. -/
def Kind.zero : Kind → Term
  | .interval => .interval ⟨0, 0⟩
  | .duration => .duration 0
  | .now => .now 0

/-- A term is as it was, but a duration may have become longer. -/
inductive Grows : Term → Term → Prop
  | same (t : Term) : Grows t t
  | longer {d e : Int} (h : d ≤ e) : Grows (.duration d) (.duration e)

variable {t u : Term} {i : Interval} {d : Int}

theorem Grows.point?_eq (h : t.Grows u) : u.point? = t.point? := by
  cases h <;> rfl

theorem Grows.exists_duration (h : (duration d).Grows u) : ∃ e, u = .duration e ∧ d ≤ e := by
  cases h with
  | same => exact ⟨d, rfl, Int.le_refl d⟩
  | longer h => exact ⟨_, rfl, h⟩

end Term

namespace Span

open Vacancy (isDuration reckonsWidth)

/-! ## What is widened -/

/-- Does a range lie within another? The other may be open where it is not. -/
def Within (s s' : Span) : Prop :=
  (∀ a', s'.start? = some a' → ∃ a, s.start? = some a ∧ a' ≤ a) ∧
    ∀ b', s'.stop? = some b' → ∃ b, s.stop? = some b ∧ b ≤ b'

/-- Does an expression widen something: by a duration, by its operator, or as the present instant
    by itself? -/
def Widens (op? : Option Operator) (left? right? : Option Term) : Prop :=
  isDuration left? = true ∨ isDuration right? = true ∨ op? = some .around ∨
    op? = none ∧ ∃ t, left? = some (.now t)

/-- What an expression widens: the point in front, or else the one behind the operator. A duration
    without an operator widens the origin. -/
def widened? (origin : Int) (op? : Option Operator) (left? right? : Option Term) :
    Option Interval :=
  match op?, left? with
  | none, some (.duration _) => some ⟨origin, origin⟩
  | _, some (.duration _) => right?.bind Term.point?
  | _, _ => left?.bind Term.point?

/-- Does an expression reach out to the time before what it widens? A range does with a duration in
    front. -/
def reachesBefore : Option Operator → Option Term → Bool
  | none, some (.interval _) => false
  | none, _ | some .around, _ => true
  | some _, left? => isDuration left?

/-- Does it reach out to the time after that? A range does with a duration behind. -/
def reachesAfter : Option Operator → Option Term → Option Term → Bool
  | none, some (.interval _), _ => false
  | none, _, _ | some .around, _, _ => true
  | some _, _, right? => isDuration right?

variable {origin width width' : Int} {op? : Option Operator} {op : Operator}
  {left? right? left'? right'? : Option Term} {t : Term} {i : Interval} {s : Span}

@[simp] theorem within_iff {a b a' b' : Int} :
    (⟨some a, some b⟩ : Span).Within ⟨some a', some b'⟩ ↔ a' ≤ a ∧ b ≤ b' := by
  simp [Within]

theorem Within.refl (s : Span) : s.Within s :=
  ⟨fun a h => ⟨a, h, Int.le_refl a⟩, fun b h => ⟨b, h, Int.le_refl b⟩⟩

theorem widen_within (i : Interval) {d e : Int} (h : d ≤ e) : (widen i d).Within (widen i e) := by
  rw [widen, widen, within_iff]
  omega

theorem within_widen (i : Interval) {d : Int} (h : 0 ≤ d) : i.toSpan.Within (widen i d) := by
  rw [Interval.toSpan, widen, within_iff]
  omega

theorem isDuration_of_point? (h : t.point? = some i) : isDuration (some t) = false := by
  cases t with
  | interval i => rfl
  | duration d => cases h
  | now t => rfl

theorem widened?_of_point? (h : t.point? = some i) :
    widened? origin op? (some t) right? = some i := by
  cases t with
  | interval j => cases op? <;> exact h
  | duration d => cases h
  | now t => cases op? <;> exact h

/-- A range between points widens nothing. -/
theorem not_widens_of_isRange (hop : op.IsRange) (hleft : isDuration left? = false)
    (hright : isDuration right? = false) : ¬ Widens (some op) left? right? := by
  rintro (h | h | h | ⟨h, -⟩)
  · rw [hleft] at h
    cases h
  · rw [hright] at h
    cases h
  · cases h
    exact hop
  · cases h

/-- A range that is widened by lengths, none of them negative, holds what it widens. -/
theorem Makes.widened_within (h : Makes origin width op? left? right? s)
    (hwidens : Widens op? left? right?) (hleft : ∀ d, left? = some (.duration d) → 0 ≤ d)
    (hright : ∀ d, right? = some (.duration d) → 0 ≤ d) (hwidth : 0 ≤ width) :
    ∃ i, widened? origin op? left? right? = some i ∧ i.toSpan.Within s := by
  cases h with
  | interval => exact ⟨_, rfl, Within.refl _⟩
  | duration => exact ⟨_, rfl, within_widen _ (hleft _ rfl)⟩
  | now => exact ⟨_, rfl, within_widen _ hwidth⟩
  | onward hop ht =>
    exact absurd hwidens (not_widens_of_isRange hop (isDuration_of_point? ht) rfl)
  | upTo hop hu =>
    exact absurd hwidens (not_widens_of_isRange hop rfl (isDuration_of_point? hu))
  | between hop ht hu =>
    exact absurd hwidens
      (not_widens_of_isRange hop (isDuration_of_point? ht) (isDuration_of_point? hu))
  | after hop ht =>
    have hd := hright _ rfl
    refine ⟨_, widened?_of_point? ht, ?_⟩
    rw [Interval.toSpan, within_iff]
    omega
  | before hop hu =>
    have hd := hleft _ rfl
    refine ⟨_, hu, ?_⟩
    rw [Interval.toSpan, within_iff]
    omega
  | around ht => exact ⟨_, widened?_of_point? ht, within_widen _ hwidth⟩
  | aroundBy ht => exact ⟨_, widened?_of_point? ht, within_widen _ (hright _ rfl)⟩

/-! ## Longer durations -/

theorem reachesBefore_of_isRange (hop : op.IsRange) (left? : Option Term) :
    reachesBefore (some op) left? = isDuration left? := by
  cases op with
  | interval => rfl
  | arrow => rfl
  | around => exact hop.elim

theorem reachesAfter_of_isRange (hop : op.IsRange) (left? right? : Option Term) :
    reachesAfter (some op) left? right? = isDuration right? := by
  cases op with
  | interval => rfl
  | arrow => rfl
  | around => exact hop.elim

/-- Longer durations and a larger width make a range that holds the one before and leave the sides
    alone to which the expression does not reach out. -/
theorem Makes.exists_of_grows (h : Makes origin width op? left? right? s)
    (hleft : Option.Rel Term.Grows left? left'?) (hright : Option.Rel Term.Grows right? right'?)
    (hwidth : width ≤ width') :
    ∃ s', Makes origin width' op? left'? right'? s' ∧ s.Within s' ∧
      (reachesBefore op? left? = false → s'.start? = s.start?) ∧
      (reachesAfter op? left? right? = false → s'.stop? = s.stop?) := by
  cases h with
  | interval =>
    obtain ⟨⟨⟩⟩ := hleft
    exact ⟨_, .interval, Within.refl _, fun _ => rfl, fun _ => rfl⟩
  | duration =>
    obtain ⟨hg⟩ := hleft
    obtain ⟨e, rfl, he⟩ := hg.exists_duration
    exact ⟨_, .duration, widen_within _ he, nofun, nofun⟩
  | now =>
    obtain ⟨⟨⟩⟩ := hleft
    exact ⟨_, .now, widen_within _ hwidth, nofun, nofun⟩
  | onward hop ht =>
    obtain ⟨hg⟩ := hleft
    cases hright
    exact ⟨_, .onward hop (hg.point?_eq.trans ht), Within.refl _, fun _ => rfl, fun _ => rfl⟩
  | upTo hop hu =>
    cases hleft
    obtain ⟨hg⟩ := hright
    exact ⟨_, .upTo hop (hg.point?_eq.trans hu), Within.refl _, fun _ => rfl, fun _ => rfl⟩
  | between hop ht hu =>
    obtain ⟨hg⟩ := hleft
    obtain ⟨hg'⟩ := hright
    exact ⟨_, .between hop (hg.point?_eq.trans ht) (hg'.point?_eq.trans hu), Within.refl _,
      fun _ => rfl, fun _ => rfl⟩
  | after hop ht =>
    obtain ⟨hg⟩ := hleft
    obtain ⟨hg'⟩ := hright
    obtain ⟨e, rfl, he⟩ := hg'.exists_duration
    refine ⟨_, .after hop (hg.point?_eq.trans ht), ?_, fun _ => rfl, fun hafter => ?_⟩
    · rw [within_iff]
      omega
    · rw [reachesAfter_of_isRange hop] at hafter
      cases hafter
  | before hop hu =>
    obtain ⟨hg⟩ := hleft
    obtain ⟨hg'⟩ := hright
    obtain ⟨e, rfl, he⟩ := hg.exists_duration
    refine ⟨_, .before hop (hg'.point?_eq.trans hu), ?_, fun hbefore => ?_, fun _ => rfl⟩
    · rw [within_iff]
      omega
    · rw [reachesBefore_of_isRange hop] at hbefore
      cases hbefore
  | around ht =>
    obtain ⟨hg⟩ := hleft
    cases hright
    exact ⟨_, .around (hg.point?_eq.trans ht), widen_within _ hwidth, nofun, nofun⟩
  | aroundBy ht =>
    obtain ⟨hg⟩ := hleft
    obtain ⟨hg'⟩ := hright
    obtain ⟨e, rfl, he⟩ := hg'.exists_duration
    exact ⟨_, .aroundBy (hg.point?_eq.trans ht), widen_within _ he, nofun, nofun⟩

/-! ## Success and failure -/

/-- No number is looked at to tell whether there is a range: numbers may all be zero. -/
theorem map_ofTerms_eq_kind (op? : Option Operator) (left? right? : Option Term)
    (origin width : Int) :
    (ofTerms op? left? right? origin width).map (fun _ => ()) =
      (ofTerms op? ((left?.map Term.kind).map Term.Kind.zero)
        ((right?.map Term.kind).map Term.Kind.zero) 0 0).map fun _ => () := by
  rcases op? with _ | (_ | _ | _) <;> rcases left? with _ | (i | d | t) <;>
    rcases right? with _ | (j | e | u) <;> rfl

/-- Where no side is widened by the default width, it may be any. -/
theorem ofTerms_of_not_reckonsWidth (h : reckonsWidth op? left? right? = false)
    (origin width width' : Int) :
    ofTerms op? left? right? origin width' = ofTerms op? left? right? origin width := by
  rcases op? with _ | (_ | _ | _)
  · rcases left? with _ | (i | d | t)
    · rfl
    · rfl
    · rfl
    · cases h
  · rfl
  · rfl
  · cases left? with
    | none => rfl
    | some t =>
      cases right? with
      | none => cases h
      | some u => rfl

/-- A range that is widened holds what it widens. Longer durations and a larger default width keep
    success and make a range that holds the one before, with the same bound on a side to which the
    expression does not reach out, and the same bounds altogether where only the width changes and
    the expression does not go by it. Success or the cause of failure stays when numbers change. -/
theorem ofTerms_widening (op? : Option Operator) (left? right? : Option Term)
    (origin width : Int) :
    (∀ s, ofTerms op? left? right? origin width = .ok s →
      (Widens op? left? right? → (∀ d, left? = some (.duration d) → 0 ≤ d) →
        (∀ d, right? = some (.duration d) → 0 ≤ d) → 0 ≤ width →
        ∃ i, widened? origin op? left? right? = some i ∧ i.toSpan.Within s) ∧
      ∀ left'? right'? width', Option.Rel Term.Grows left? left'? →
        Option.Rel Term.Grows right? right'? → width ≤ width' →
        ∃ s', ofTerms op? left'? right'? origin width' = .ok s' ∧ s.Within s' ∧
          (reachesBefore op? left? = false → s'.start? = s.start?) ∧
          (reachesAfter op? left? right? = false → s'.stop? = s.stop?)) ∧
    (reckonsWidth op? left? right? = false → ∀ width',
      ofTerms op? left? right? origin width' = ofTerms op? left? right? origin width) ∧
    ∀ left'? right'? origin' width', left'?.map Term.kind = left?.map Term.kind →
      right'?.map Term.kind = right?.map Term.kind →
      (ofTerms op? left'? right'? origin' width').map (fun _ => ()) =
        (ofTerms op? left? right? origin width).map fun _ => () := by
  refine ⟨fun s hs => ⟨fun hwidens hleft hright hwidth => ?_, ?_⟩,
    fun h width' => ofTerms_of_not_reckonsWidth h origin width width', ?_⟩
  · exact (ofTerms_eq_ok_iff.mp hs).widened_within hwidens hleft hright hwidth
  · intro left'? right'? width' hleft hright hwidth
    obtain ⟨s', hs', hwithin⟩ := (ofTerms_eq_ok_iff.mp hs).exists_of_grows hleft hright hwidth
    exact ⟨s', ofTerms_eq_ok_iff.mpr hs', hwithin⟩
  · intro left'? right'? origin' width' hleft hright
    rw [map_ofTerms_eq_kind, hleft, hright, ← map_ofTerms_eq_kind]

/-- A duration in front of a range is lengthened: the start goes back and the stop stays, whatever
    the default width is. -/
theorem ofTerms_widening_duration_in_front :
    ofTerms (some .arrow) (some (.duration 5)) (some (.interval ⟨10, 20⟩)) 0 3 =
      .ok ⟨some 5, some 20⟩ ∧
    (∃ i, widened? 0 (some .arrow) (some (.duration 5)) (some (.interval ⟨10, 20⟩)) = some i ∧
      i.toSpan.Within ⟨some 5, some 20⟩) ∧
    (∃ s', ofTerms (some .arrow) (some (.duration 8)) (some (.interval ⟨10, 20⟩)) 0 7 = .ok s' ∧
      (⟨some 5, some 20⟩ : Span).Within s' ∧ s'.stop? = some 20) ∧
    ofTerms (some .arrow) (some (.duration 5)) (some (.interval ⟨10, 20⟩)) 0 7 =
      ofTerms (some .arrow) (some (.duration 5)) (some (.interval ⟨10, 20⟩)) 0 3 ∧
    (ofTerms (some .arrow) (some (.duration (-4))) (some (.interval ⟨3, 1⟩)) 9 0).map
        (fun _ => ()) =
      (ofTerms (some .arrow) (some (.duration 5)) (some (.interval ⟨10, 20⟩)) 0 3).map
        fun _ => () := by
  obtain ⟨hmade, hwidth, hkind⟩ :=
    ofTerms_widening (some .arrow) (some (.duration 5)) (some (.interval ⟨10, 20⟩)) 0 3
  obtain ⟨hwidened, hgrown⟩ := hmade ⟨some 5, some 20⟩ rfl
  have hlonger : (Term.duration 5).Grows (.duration 8) := .longer (by decide)
  refine ⟨rfl, hwidened (Or.inl rfl) ?_ nofun (by decide), ?_, hwidth rfl 7,
    hkind _ _ 9 0 rfl rfl⟩
  · rintro d ⟨⟩
    decide
  · obtain ⟨s', hs', hwithin, -, hstop⟩ :=
      hgrown _ _ 7 (.some hlonger) (.some (.same _)) (by decide)
    exact ⟨s', hs', hwithin, hstop rfl⟩

end Span

end Timespan
