/-
  Which texts get an answer. A range and a rejection are both answers, and they are all there is
  unless a numeral is overlong: a duration of more than `Text.maxDigits` digits, or an instant that
  long on the clock (`interpret_spec`). So the interpreter is not total on bad input: a run of
  digits with a unit is enough to leave it without an answer (`interpret_overlong_duration`).
-/
import Timespan.Interpreter
import Timespan.Proofs.Expression.Write
import Timespan.Proofs.Term.Overlong
import Timespan.Proofs.Term.Read
import Timespan.Zone.Atlas

namespace Timespan

/-- An expression that cannot be answered: its first term is overlong, or the first is missing or
    resolves and the second is. -/
def Expression.Overlong (c : WallClock) (origin : Int) (e : Expression) : Prop :=
  (∃ l, e.left? = some l ∧ Term.Overlong c origin l) ∨
    (∀ l, e.left? = some l → ∃ t, Term.resolve c origin l = .ok t) ∧
      ∃ r, e.right? = some r ∧ Term.Overlong c origin r

@[simp] theorem resolveExpression_eq_overlongNumeral_iff {c : WallClock} {origin width : Int}
    {text : List Char} :
    resolveExpression c origin width text = .error .overlongNumeral ↔
      ∃ e, Expression.read (Text.tidyPlain text) = .ok e ∧ e.Overlong c origin := by
  have hread : ∀ {α : Type} (x : Except Rejection α),
      x.mapError Fault.rejected ≠ .error .overlongNumeral := by
    intro α x hx
    obtain ⟨_, -, h⟩ := mapError_eq_error_iff.mp hx
    cases h
  simp only [resolveExpression, bind_eq_error_iff, hread, false_or, or_false, mapError_eq_ok_iff,
    mapM_eq_error_iff, Term.resolve_eq_overlongNumeral_iff, and_false, exists_false]
  refine exists_congr fun e => and_congr_right fun _ => or_congr_right ?_
  rw [exists_and_right, exists_mapM_eq_ok_iff]

variable (atlas : Atlas) (config : Config) (clock : Int) (text? : Option String)

theorem interpret_eq_overlongNumeral_iff :
    interpret atlas config clock text? = .error .overlongNumeral ↔
      ∃ s e, expressionText? text? = some s ∧ Expression.read (Text.tidyPlain s.toList) = .ok e ∧
        e.Overlong (atlas.clock config.mode) (config.now?.getD clock) := by
  have hresolve : interpret atlas config clock text? = .error .overlongNumeral ↔
      resolve atlas config clock text? = .error .overlongNumeral := by
    rw [interpret]
    split <;> simp_all
  rw [hresolve, resolve]
  cases expressionText? text? with
  | none => simp
  | some s =>
    simp

theorem interpret_eq_ok_iff (answer : Outcome) :
    interpret atlas config clock text? = .ok answer ↔
      (∃ r, resolve atlas config clock text? = .ok r ∧
        answer = .found (Report.of r (text?.getD ""))) ∨
      ∃ cause, resolve atlas config clock text? = .error (.rejected cause) ∧
        answer = .rejected cause := by
  rw [interpret]
  cases resolve atlas config clock text? with
  | ok r => simp [eq_comm]
  | error fault =>
    cases fault with
    | rejected cause => simp [eq_comm]
    | overlongNumeral => simp

/-- A fixed present instant leaves nothing to the clock. -/
theorem resolve_clock {config : Config} {t : Int} (hnow : config.now? = some t)
    (clock clock' : Int) :
    resolve atlas config clock text? = resolve atlas config clock' text? := by
  simp only [resolve, hnow, Option.getD_some]

theorem interpret_clock {config : Config} {t : Int} (hnow : config.now? = some t)
    (clock clock' : Int) :
    interpret atlas config clock text? = interpret atlas config clock' text? := by
  rw [interpret, interpret, resolve_clock atlas text? hnow clock clock']

theorem interpret_ne_rejected (cause : Rejection) :
    interpret atlas config clock text? ≠ .error (.rejected cause) := by
  intro h
  rw [interpret] at h
  split at h <;> cases h

/-- The interpreter answers every text but those that hold an overlong numeral, and its answer is
    the range where there is one and else the cause of the rejection. -/
theorem interpret_spec :
    (interpret atlas config clock text? = .error .overlongNumeral ↔
      ∃ s e, expressionText? text? = some s ∧ Expression.read (Text.tidyPlain s.toList) = .ok e ∧
        e.Overlong (atlas.clock config.mode) (config.now?.getD clock)) ∧
    (∀ cause, interpret atlas config clock text? ≠ .error (.rejected cause)) ∧
    ∀ answer, interpret atlas config clock text? = .ok answer ↔
      (∃ r, resolve atlas config clock text? = .ok r ∧
        answer = .found (Report.of r (text?.getD ""))) ∨
      ∃ cause, resolve atlas config clock text? = .error (.rejected cause) ∧
        answer = .rejected cause :=
  ⟨interpret_eq_overlongNumeral_iff atlas config clock text?,
    interpret_ne_rejected atlas config clock text?, interpret_eq_ok_iff atlas config clock text?⟩

/-! ## Long runs of digits -/

section

variable {cs : List Char} (hsolid : ∀ c ∈ cs, Text.Solid c) (hne : cs ≠ [])
include hsolid hne

theorem expressionText?_of_solid :
    expressionText? (some (String.ofList cs)) = some (String.ofList cs) := by
  have htrim := Text.trim_of_not_blank (fun c hc => (hsolid c hc).1)
  have hname : String.ofList cs ≠ noFilter := by
    intro h
    -- the space in the one is not solid
    have hblank : ' ' ∈ cs := by
      rw [← String.toList_ofList (l := cs), h]
      decide
    exact absurd (hsolid ' ' hblank) (by decide)
  rw [expressionText?, Option.filter_some, if_pos]
  rw [String.toList_ofList, htrim, Bool.and_eq_true, decide_eq_true_eq]
  exact ⟨by simp [hne], hname⟩

/-- A word without hyphens and operators is an expression of one term. -/
theorem Expression.read_of_solid (hcut : ∀ c ∈ cs, c ≠ '-' ∧ c ≠ '<') :
    read (Text.tidyPlain cs) = .ok ⟨some cs, none, none⟩ := by
  have htrim := Text.trim_of_not_blank (fun c hc => (hsolid c hc).1)
  rw [Text.tidyPlain, Text.plainText_of_solid hsolid, Text.tidy_of_solid hsolid]
  exact read_of_term ⟨htrim, hne, Operator.cut?_eq_none hcut⟩

end

/-- A run of more than `Text.maxDigits` digits before a unit has no answer, in any settings and at
    any time. -/
theorem interpret_overlong_duration {ds unit : List Char} (hd : ∀ c ∈ ds, c.isDigit = true)
    (hl : Text.maxDigits < ds.length) (hu : ∀ c ∈ unit, Text.isLowerLetter c = true)
    (hne : unit ≠ []) :
    interpret atlas config clock (some (String.ofList (ds ++ unit))) = .error .overlongNumeral := by
  have hchars : ∀ c ∈ ds ++ unit, c.isDigit = true ∨ Text.isLowerLetter c = true := by
    intro c hc
    exact (List.mem_append.mp hc).imp (hd c) (hu c)
  have hsolid : ∀ c ∈ ds ++ unit, Text.Solid c := fun c hc =>
    (hchars c hc).elim Text.solid_of_isDigit Text.solid_of_isLowerLetter
  have hcut : ∀ c ∈ ds ++ unit, c ≠ '-' ∧ c ≠ '<' := by
    intro c hc
    refine ⟨?_, ?_⟩ <;> rintro rfl <;> exact absurd (hchars _ hc) (by decide)
  have hne' : ds ++ unit ≠ [] := fun h => hne (List.append_eq_nil_iff.mp h).2
  rw [interpret_eq_overlongNumeral_iff]
  refine ⟨_, ⟨some (ds ++ unit), none, none⟩, expressionText?_of_solid hsolid hne', ?_,
    Or.inl ⟨_, rfl, ?_⟩⟩
  · rw [String.toList_ofList, Expression.read_of_solid hsolid hne' hcut]
  · have hsix : 6 < ds.length := Nat.lt_of_le_of_lt (by decide) hl
    rw [Term.Overlong, Term.form_digits_unit hd hsix hu hne]
    exact hl

/-- One zero too many. -/
theorem interpret_zero_seconds :
    interpret (Atlas.ofHost "UTC0") { utc := true, now? := some 0 } 0
      (some (String.ofList (List.replicate 4301 '0' ++ ['s']))) = .error .overlongNumeral := by
  refine interpret_overlong_duration _ _ _ ?_ ?_ ?_ (List.cons_ne_nil _ _)
  · intro c hc
    rw [List.eq_of_mem_replicate hc]
    rfl
  · rw [List.length_replicate]
    decide
  · intro c hc
    rw [List.mem_singleton.mp hc]
    rfl

end Timespan
