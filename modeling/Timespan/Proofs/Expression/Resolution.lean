/-
  How a text comes to its range. A text that is not blank, nor the one that asks for no range, is
  read as an expression (`resolve_of_read`), whose terms are resolved one after the other and then
  joined by its operator (`Expression.resolve_eq_ok_iff`).
-/
import Timespan.Interpreter
import Timespan.Proofs.Except
import Timespan.Proofs.Expression.Write
import Timespan.Proofs.Text.Plain

namespace Timespan

open Text

/-! ## Expressions -/

namespace Expression

/-- The range of an expression: its first term is resolved, then its second, and then they are
    joined. -/
def resolve (c : WallClock) (origin width : Int) (e : Expression) : Except Fault Span := do
  let left? ← e.left?.mapM (Term.resolve c origin)
  let right? ← e.right?.mapM (Term.resolve c origin)
  (Span.ofTerms e.operator? left? right? origin width).mapError .rejected

variable {c : WallClock} {origin width : Int} {e : Expression} {span : Span}

theorem resolve_eq_ok_iff :
    e.resolve c origin width = .ok span ↔
      ∃ left? right?, e.left?.mapM (Term.resolve c origin) = .ok left? ∧
        e.right?.mapM (Term.resolve c origin) = .ok right? ∧
        Span.ofTerms e.operator? left? right? origin width = .ok span := by
  simp [resolve]

end Expression

/-! ## Texts -/

theorem resolveExpression_eq (c : WallClock) (origin width : Int) (text : List Char) :
    resolveExpression c origin width text =
      (Expression.read (tidyPlain text)).mapError .rejected >>= Expression.resolve c origin width :=
  rfl

theorem trim_isEmpty (cs : List Char) : (trim cs).isEmpty = (tidyPlain cs).isEmpty := by
  rw [Bool.eq_iff_iff, List.isEmpty_iff, List.isEmpty_iff, trim_eq_nil_iff, tidyPlain_eq_nil_iff]

theorem expressionText?_some (s : String) :
    expressionText? (some s) =
      if tidyPlain s.toList ≠ [] ∧ s ≠ noFilter then some s else none := by
  rw [expressionText?, Option.filter_some, trim_isEmpty]
  refine if_congr ?_ rfl rfl
  simp

variable {atlas : Atlas} {config : Config} {clock : Int} {span : Span}

/-- A text without characters other than blanks has no range. -/
theorem resolve_of_blank {s : String} (h : tidyPlain s.toList = []) :
    resolve atlas config clock (some s) = .error (.rejected .emptyInput) := by
  rw [resolve, expressionText?_some, if_neg (by simp [h])]

theorem resolve_of_not_blank {s : String} (h : tidyPlain s.toList ≠ []) (hs : s ≠ noFilter) :
    resolve atlas config clock (some s) =
      (Expression.read (tidyPlain s.toList)).mapError .rejected >>=
        Expression.resolve (atlas.clock config.mode) (config.now?.getD clock) config.width := by
  rw [resolve, expressionText?_some, if_pos ⟨h, hs⟩]
  rfl

/-- A text that is not the one that asks for no range has the range of its plain, tidy reading. -/
theorem resolve_eq_of_ne {x : String} (hx : x ≠ noFilter) :
    resolve atlas config clock (some x) =
      if tidyPlain x.toList = [] then .error (.rejected .emptyInput)
      else (Expression.read (tidyPlain x.toList)).mapError .rejected >>=
        Expression.resolve (atlas.clock config.mode) (config.now?.getD clock) config.width := by
  by_cases hblank : tidyPlain x.toList = []
  · rw [resolve_of_blank hblank, if_pos hblank]
  · rw [resolve_of_not_blank hblank hx, if_neg hblank]

theorem resolve_of_read {s : String} {e : Expression} (h : tidyPlain s.toList ≠ [])
    (hs : s ≠ noFilter) (hread : Expression.read (tidyPlain s.toList) = .ok e) :
    resolve atlas config clock (some s) =
      e.resolve (atlas.clock config.mode) (config.now?.getD clock) config.width := by
  rw [resolve_of_not_blank h hs, hread]
  rfl

theorem resolve_eq_ok_iff {text? : Option String} :
    resolve atlas config clock text? = .ok span ↔
      ∃ s e, text? = some s ∧ tidyPlain s.toList ≠ [] ∧ s ≠ noFilter ∧
        Expression.read (tidyPlain s.toList) = .ok e ∧
        e.resolve (atlas.clock config.mode) (config.now?.getD clock) config.width = .ok span := by
  cases text? with
  | none => simp [resolve, expressionText?]
  | some s =>
    rw [resolve, expressionText?_some]
    by_cases h : tidyPlain s.toList ≠ [] ∧ s ≠ noFilter
    · simp [h, resolveExpression_eq]
    · rw [if_neg h]
      refine iff_of_false (by simp) ?_
      rintro ⟨_, _, ⟨⟩, h1, h2, -⟩
      exact h ⟨h1, h2⟩

/-- A text with an operator is never one of those that ask for no range. -/
theorem resolve_of_read_operator {s : String} {e : Expression} {op : Operator}
    (hread : Expression.read (tidyPlain s.toList) = .ok e) (hop : e.operator? = some op) :
    resolve atlas config clock (some s) =
      e.resolve (atlas.clock config.mode) (config.now?.getD clock) config.width := by
  refine resolve_of_read ?_ ?_ hread
  · intro h
    rw [h] at hread
    cases hread
    cases hop
  · rintro rfl
    rw [show Expression.read (tidyPlain noFilter.toList) =
      .ok ⟨some noFilter.toList, none, none⟩ by decide +kernel] at hread
    cases hread
    cases hop

end Timespan
