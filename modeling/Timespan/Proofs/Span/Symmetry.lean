/-
  The symmetries of the time line. What the operators make of their terms moves along the line as
  the terms do, and it turns round with them: where time runs backwards, starts and stops change
  places, and so do the two terms of a range (`Span.ofTerms_symmetry`).
-/
import Timespan.Proofs.Span

namespace Timespan

def Interval.reverse (i : Interval) : Interval := ⟨-i.stop, -i.start⟩

/-- A term as it stands on a time line that runs backwards; durations are as long there. -/
def Term.reverse : Term → Term
  | .interval i => .interval i.reverse
  | .duration d => .duration d
  | .now t => .now (-t)

namespace Span

def reverse (s : Span) : Span := ⟨s.stop?.map (- ·), s.start?.map (- ·)⟩

/-- The terms of an expression where time runs backwards. A range starts at what was its second
    term; without a range operator the terms keep their places. -/
def reverseTerms (op? : Option Operator) (left? right? : Option Term) :
    Option Term × Option Term :=
  match op? with
  | some .interval | some .arrow => (right?.map Term.reverse, left?.map Term.reverse)
  | some .around | none => (left?.map Term.reverse, right?.map Term.reverse)

@[simp] theorem point_reverse (t : Term) : point t.reverse = (point t).map Interval.reverse := by
  cases t <;> rfl

@[simp] theorem widen_reverse (i : Interval) (d : Int) :
    widen i.reverse d = (widen i d).reverse := by
  simp only [widen, Interval.reverse, reverse, Option.map_some, Span.mk.injEq, Option.some.injEq]
  omega

@[simp] theorem single_reverse (origin width : Int) (left? : Option Term) :
    single (-origin) width (left?.map Term.reverse) = (single origin width left?).map reverse := by
  rcases left? with _ | (i | d | t)
  · rfl
  · rfl
  · exact congrArg Except.ok (widen_reverse ⟨origin, origin⟩ d)
  · exact congrArg Except.ok (widen_reverse ⟨t, t⟩ width)

/-- A duration behind a term lies in front of it when both are turned round. -/
theorem reverse_after (i : Interval) (d : Int) :
    (⟨some i.start, some (i.stop + d)⟩ : Span).reverse =
      ⟨some (i.reverse.start - d), some i.reverse.stop⟩ := by
  simp only [reverse, Interval.reverse, Option.map_some, Span.mk.injEq, Option.some.injEq,
    and_true]
  omega

theorem reverse_before (i : Interval) (d : Int) :
    (⟨some (i.start - d), some i.stop⟩ : Span).reverse =
      ⟨some i.reverse.start, some (i.reverse.stop + d)⟩ := by
  simp only [reverse, Interval.reverse, Option.map_some, Span.mk.injEq, Option.some.injEq,
    true_and]
  omega

/-- The range between two terms is turned round with its terms in the other order. -/
@[simp] theorem between_reverse (left? right? : Option Term) :
    between (right?.map Term.reverse) (left?.map Term.reverse) =
      (between left? right?).map reverse := by
  cases left? with
  | none =>
    cases right? with
    | none => rfl
    | some u =>
      simp only [Option.map_none, Option.map_some, between, point_reverse, bind_map, map_bind]
      rfl
  | some t =>
    cases right? with
    | none =>
      simp only [Option.map_none, Option.map_some, between, point_reverse, bind_map, map_bind]
      rfl
    | some u =>
      -- only two durations make no range, and for the same cause in either order
      rcases t with i | d | t <;> rcases u with j | e | u
      · rfl
      · exact congrArg Except.ok (reverse_after i e).symm
      · rfl
      · exact congrArg Except.ok (reverse_before j d).symm
      · rfl
      · exact congrArg Except.ok (reverse_before ⟨u, u⟩ d).symm
      · rfl
      · exact congrArg Except.ok (reverse_after ⟨t, t⟩ e).symm
      · rfl

@[simp] theorem around_reverse (width : Int) (left? right? : Option Term) :
    around width (left?.map Term.reverse) (right?.map Term.reverse) =
      (around width left? right?).map reverse := by
  cases left? with
  | none => rfl
  | some t =>
    cases right? with
    | none =>
      simp [around]
    | some u =>
      simp only [Option.map_some, around, point_reverse, bind_map, map_bind]
      refine bind_congr fun i => ?_
      rcases u with j | d | u
      · rfl
      · exact congrArg Except.ok (widen_reverse i d)
      · rfl

/-- Terms turned round make the range turned round, or none for the same cause. -/
theorem ofTerms_reverse (op? : Option Operator) (left? right? : Option Term)
    (origin width : Int) :
    ofTerms op? (reverseTerms op? left? right?).1 (reverseTerms op? left? right?).2 (-origin)
        width =
      (ofTerms op? left? right? origin width).map reverse := by
  cases op? with
  | none => exact single_reverse origin width left?
  | some op =>
    cases op with
    | interval => exact between_reverse left? right?
    | arrow => exact between_reverse left? right?
    | around => exact around_reverse width left? right?

/-- Ranges are made in the same way everywhere on the time line and in both its directions: terms
    that are moved or turned round make the range moved or turned round, open on the side that
    goes with it, or they make none for the cause they had. -/
theorem ofTerms_symmetry (op? : Option Operator) (left? right? : Option Term)
    (origin width : Int) :
    (∀ δ, ofTerms op? (left?.map (Term.shift δ)) (right?.map (Term.shift δ)) (origin + δ) width =
      (ofTerms op? left? right? origin width).map (shift δ)) ∧
    ofTerms op? (reverseTerms op? left? right?).1 (reverseTerms op? left? right?).2 (-origin)
        width =
      (ofTerms op? left? right? origin width).map reverse :=
  ⟨fun δ => ofTerms_shift δ origin width op? left? right?,
    ofTerms_reverse op? left? right? origin width⟩

end Span

end Timespan
