/-
  What the operators make of their terms. `Span.Makes` lists every range there is
  (`Span.ofTerms_eq_ok_iff`), and the rest is read off it: a side is open just where a range has no
  term, and of terms that do not run backwards only a range from a point to one before it does
  (`Span.inverted_iff_of_makes`).
-/
import Timespan.Proofs.Except
import Timespan.Span

namespace Timespan

/-- Does an operator ask for the range from one term to another? -/
def Operator.IsRange : Operator → Prop
  | .interval | .arrow => True
  | .around => False

@[simp] theorem Operator.not_isRange_around : ¬ Operator.around.IsRange := id

namespace Term

/-- A term that does not run backwards: its stop does not lie before its start, and it is not
    shorter than nothing. -/
def Forward : Term → Prop
  | .interval i => i.start ≤ i.stop
  | .duration d => 0 ≤ d
  | .now _ => True

theorem Forward.start_le_stop {t : Term} {i : Interval} (h : t.Forward) (ht : t.point? = some i) :
    i.start ≤ i.stop := by
  cases t with
  | interval i => cases ht; exact h
  | duration d => cases ht
  | now t => cases ht; exact Int.le_refl t

end Term

namespace Span

/-! ## All ranges -/

/-- The ranges that operators make of terms. -/
inductive Makes (origin width : Int) : Option Operator → Option Term → Option Term → Span → Prop
  | interval {i : Interval} {u? : Option Term} :
      Makes origin width none (some (.interval i)) u? i.toSpan
  | duration {d : Int} {u? : Option Term} :
      Makes origin width none (some (.duration d)) u? (widen ⟨origin, origin⟩ d)
  | now {t : Int} {u? : Option Term} :
      Makes origin width none (some (.now t)) u? (widen ⟨t, t⟩ width)
  | onward {op : Operator} {t : Term} {i : Interval} (hop : op.IsRange) (ht : t.point? = some i) :
      Makes origin width (some op) (some t) none ⟨some i.start, none⟩
  | upTo {op : Operator} {u : Term} {j : Interval} (hop : op.IsRange) (hu : u.point? = some j) :
      Makes origin width (some op) none (some u) ⟨none, some j.stop⟩
  | between {op : Operator} {t u : Term} {i j : Interval} (hop : op.IsRange)
      (ht : t.point? = some i) (hu : u.point? = some j) :
      Makes origin width (some op) (some t) (some u) ⟨some i.start, some j.stop⟩
  | after {op : Operator} {t : Term} {i : Interval} {d : Int} (hop : op.IsRange)
      (ht : t.point? = some i) :
      Makes origin width (some op) (some t) (some (.duration d)) ⟨some i.start, some (i.stop + d)⟩
  | before {op : Operator} {u : Term} {j : Interval} {d : Int} (hop : op.IsRange)
      (hu : u.point? = some j) :
      Makes origin width (some op) (some (.duration d)) (some u) ⟨some (j.start - d), some j.stop⟩
  | around {t : Term} {i : Interval} (ht : t.point? = some i) :
      Makes origin width (some .around) (some t) none (widen i width)
  | aroundBy {t : Term} {i : Interval} {d : Int} (ht : t.point? = some i) :
      Makes origin width (some .around) (some t) (some (.duration d)) (widen i d)

variable {origin width : Int} {op? : Option Operator} {op : Operator} {left? right? : Option Term}
  {t u : Term} {i j : Interval} {s : Span}

theorem point_eq_ok_iff : point t = .ok i ↔ t.point? = some i := by
  rw [point]
  cases t.point? <;> simp

theorem ofTerms_of_isRange (hop : op.IsRange) :
    ofTerms (some op) left? right? origin width = between left? right? := by
  cases op with
  | interval => rfl
  | arrow => rfl
  | around => exact hop.elim

theorem makes_of_single (h : single origin width left? = .ok s) :
    Makes origin width none left? right? s := by
  cases left? with
  | none => cases h
  | some t =>
    cases t with
    | interval i => cases h; exact .interval
    | duration d => cases h; exact .duration
    | now t => cases h; exact .now

theorem makes_of_between (hop : op.IsRange) (h : between left? right? = .ok s) :
    Makes origin width (some op) left? right? s := by
  cases left? with
  | none =>
    cases right? with
    | none => cases h
    | some u =>
      obtain ⟨j, hj, hs⟩ := bind_eq_ok_iff.mp h
      cases hs
      exact .upTo hop (point_eq_ok_iff.mp hj)
  | some t =>
    cases right? with
    | none =>
      obtain ⟨i, hi, hs⟩ := bind_eq_ok_iff.mp h
      cases hs
      exact .onward hop (point_eq_ok_iff.mp hi)
    | some u =>
      -- a duration after a term is looked for before one in front of it
      cases u with
      | duration d =>
        obtain ⟨i, hi, hs⟩ := bind_eq_ok_iff.mp h
        cases hs
        exact .after hop (point_eq_ok_iff.mp hi)
      | interval j =>
        cases t with
        | duration d => cases h; exact .before hop rfl
        | interval i => cases h; exact .between hop rfl rfl
        | now t => cases h; exact .between hop rfl rfl
      | now u =>
        cases t with
        | duration d => cases h; exact .before hop rfl
        | interval i => cases h; exact .between hop rfl rfl
        | now t => cases h; exact .between hop rfl rfl

theorem makes_of_around (h : around width left? right? = .ok s) :
    Makes origin width (some .around) left? right? s := by
  cases left? with
  | none => cases h
  | some t =>
    cases right? with
    | none =>
      obtain ⟨i, hi, hs⟩ := bind_eq_ok_iff.mp h
      cases hs
      exact .around (point_eq_ok_iff.mp hi)
    | some u =>
      obtain ⟨i, hi, hs⟩ := bind_eq_ok_iff.mp h
      cases u with
      | duration d => cases hs; exact .aroundBy (point_eq_ok_iff.mp hi)
      | interval j => cases hs
      | now u => cases hs

theorem ofTerms_eq_ok_iff :
    ofTerms op? left? right? origin width = .ok s ↔ Makes origin width op? left? right? s := by
  constructor
  · intro h
    cases op? with
    | none => exact makes_of_single h
    | some op =>
      cases op with
      | interval => exact makes_of_between trivial h
      | arrow => exact makes_of_between trivial h
      | around => exact makes_of_around h
  · intro h
    cases h with
    | interval => rfl
    | duration => rfl
    | now => rfl
    | onward hop ht => rw [ofTerms_of_isRange hop, between, point_eq_ok_iff.mpr ht]; rfl
    | upTo hop hu => rw [ofTerms_of_isRange hop, between, point_eq_ok_iff.mpr hu]; rfl
    | @between _ t u _ _ hop ht hu =>
      rw [ofTerms_of_isRange hop]
      cases t <;> cases u <;> cases ht <;> cases hu <;> rfl
    | @after _ t _ _ hop ht =>
      rw [ofTerms_of_isRange hop]
      cases t <;> cases ht <;> rfl
    | @before _ u _ _ hop hu =>
      rw [ofTerms_of_isRange hop]
      cases u <;> cases hu <;> rfl
    | @around t _ ht => cases t <;> cases ht <;> rfl
    | @aroundBy t _ _ ht => cases t <;> cases ht <;> rfl

/-! ## Open sides -/

theorem Makes.start?_eq_none_iff (h : Makes origin width op? left? right? s) :
    s.start? = none ↔ (∃ op, op? = some op ∧ op.IsRange) ∧ left? = none := by
  cases h <;> simp [Interval.toSpan, widen, *]

theorem Makes.stop?_eq_none_iff (h : Makes origin width op? left? right? s) :
    s.stop? = none ↔ (∃ op, op? = some op ∧ op.IsRange) ∧ right? = none := by
  cases h <;> simp [Interval.toSpan, widen, *]

theorem Makes.exists_bound (h : Makes origin width op? left? right? s) :
    ¬ (s.start? = none ∧ s.stop? = none) := by
  cases h <;> simp [Interval.toSpan, widen]

/-! ## Ranges that run backwards -/

/-- A range whose start lies after its stop. -/
def Inverted (s : Span) : Prop := ∃ a b, s.start? = some a ∧ s.stop? = some b ∧ b < a

theorem inverted_iff {a b : Int} : Inverted ⟨some a, some b⟩ ↔ b < a := by
  simp [Inverted]

theorem not_inverted_widen {d : Int} (hi : i.start ≤ i.stop) (hd : 0 ≤ d) :
    ¬ (widen i d).Inverted := by
  rw [widen, inverted_iff]
  omega

/-- Where no term runs backwards, a range does only between two points, the second of which stops
    before the first starts. -/
theorem Makes.inverted_iff (h : Makes origin width op? left? right? s)
    (hleft : ∀ t ∈ left?, t.Forward) (hright : ∀ t ∈ right?, t.Forward) (hwidth : 0 ≤ width) :
    s.Inverted ↔ (∃ op, op? = some op ∧ op.IsRange) ∧ ∃ t u i j, left? = some t ∧
      right? = some u ∧ t.point? = some i ∧ u.point? = some j ∧ j.stop < i.start := by
  cases h with
  | @between op t u i j hop ht hu => simp [Span.inverted_iff, hop, ht, hu]
  | @interval i _ =>
    have hi : i.start ≤ i.stop := hleft _ rfl
    refine iff_of_false ?_ (by simp)
    rw [Interval.toSpan, Span.inverted_iff]
    omega
  | @duration d _ =>
    have hd : 0 ≤ d := hleft _ rfl
    exact iff_of_false (not_inverted_widen (Int.le_refl _) hd) (by simp)
  | now => exact iff_of_false (not_inverted_widen (Int.le_refl _) hwidth) (by simp)
  | onward => simp [Inverted]
  | upTo => simp [Inverted]
  | @after _ t i d hop ht =>
    have hi := (hleft t rfl).start_le_stop ht
    have hd : 0 ≤ d := hright _ rfl
    rw [Span.inverted_iff]
    refine iff_of_false (by omega) ?_
    simp [Term.point?]
  | @before _ u j d hop hu =>
    have hj := (hright u rfl).start_le_stop hu
    have hd : 0 ≤ d := hleft _ rfl
    rw [Span.inverted_iff]
    refine iff_of_false (by omega) ?_
    simp [Term.point?]
  | @around t i ht =>
    have hi := (hleft t rfl).start_le_stop ht
    exact iff_of_false (not_inverted_widen hi hwidth) (by simp)
  | @aroundBy t i d ht =>
    have hi := (hleft t rfl).start_le_stop ht
    have hd : 0 ≤ d := hright _ rfl
    exact iff_of_false (not_inverted_widen hi hd) (by simp [Term.point?])

end Span

/-! ## Moves along the time line -/

def Interval.shift (δ : Int) (i : Interval) : Interval := ⟨i.start + δ, i.stop + δ⟩

/-- A term moved along the time line, on which durations have no place. -/
def Term.shift (δ : Int) : Term → Term
  | .interval i => .interval (i.shift δ)
  | .duration d => .duration d
  | .now t => .now (t + δ)

namespace Span

def shift (δ : Int) (s : Span) : Span := ⟨s.start?.map (· + δ), s.stop?.map (· + δ)⟩

theorem shift_shift_neg (δ : Int) (s : Span) : (s.shift δ).shift (-δ) = s := by
  have hback : (· + -δ) ∘ (· + δ) = id := funext fun t => Int.add_neg_cancel_right t δ
  simp [shift, hback]

theorem widen_shift (δ width : Int) (i : Interval) :
    widen (i.shift δ) width = (widen i width).shift δ := by
  simp only [widen, Interval.shift, shift, Option.map_some, Span.mk.injEq, Option.some.injEq]
  omega

@[simp] theorem single_shift (δ origin width : Int) (left? : Option Term) :
    single (origin + δ) width (left?.map (Term.shift δ)) =
      (single origin width left?).map (shift δ) := by
  rcases left? with _ | (i | d | t)
  · rfl
  · rfl
  · exact congrArg Except.ok (widen_shift δ d ⟨origin, origin⟩)
  · exact congrArg Except.ok (widen_shift δ width ⟨t, t⟩)

/-- Either bound is that of a term, moved out by a duration at most, so it goes with its term. -/
@[simp] theorem between_shift (δ : Int) (left? right? : Option Term) :
    between (left?.map (Term.shift δ)) (right?.map (Term.shift δ)) =
      (between left? right?).map (shift δ) := by
  rcases left? with _ | (i | d | t) <;> rcases right? with _ | (j | e | u) <;>
    simp [between, point, Term.shift, Term.point?, Interval.shift, shift] <;> omega

@[simp] theorem around_shift (δ width : Int) (left? right? : Option Term) :
    around width (left?.map (Term.shift δ)) (right?.map (Term.shift δ)) =
      (around width left? right?).map (shift δ) := by
  rcases left? with _ | (i | d | t) <;> rcases right? with _ | (j | e | u) <;>
    simp [around, widen, point, Term.shift, Term.point?, Interval.shift, shift] <;> omega

/-- Terms moved together with the origin make the range that moves with them, or none for the same
    cause. -/
@[simp] theorem ofTerms_shift (δ origin width : Int) (op? : Option Operator)
    (left? right? : Option Term) :
    ofTerms op? (left?.map (Term.shift δ)) (right?.map (Term.shift δ)) (origin + δ) width =
      (ofTerms op? left? right? origin width).map (shift δ) := by
  cases op? with
  | none => exact single_shift δ origin width left?
  | some op =>
    cases op with
    | interval => exact between_shift δ left? right?
    | arrow => exact between_shift δ left? right?
    | around => exact around_shift δ width left? right?

end Span

end Timespan
