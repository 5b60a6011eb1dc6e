/-
  Expressions are put together from their parts. Two texts, each a term by itself, with an operator
  between them have the range that the operator makes of the two terms, whatever look-alikes, blanks
  and stray characters they hold. So the two operators for ranges are one and the same, either side
  of a range can be had by itself, and the short forms stand for the long ones
  (`resolve_compositional`).
-/
import Timespan.Proofs.Expression.Resolution
import Timespan.Proofs.Span
import Timespan.Proofs.Term.Form
import Timespan.Zone.Atlas

namespace Timespan

open Text

/-- The token of an operator as a text. -/
def Operator.text (op : Operator) : String := String.ofList op.token

@[simp] theorem tidyPlain_token (op : Operator) : tidyPlain op.token = op.token := by
  cases op <;> decide

/-- A text that is not blank and in which, read plainly, no operator stands. -/
structure IsTermText (s : String) : Prop where
  visible : ∃ c ∈ s.toList, isBlank c = false
  uncut : ∀ op : Operator, ¬ op.token <:+: tidyPlain s.toList

theorem IsTermText.isTerm {s : String} (h : IsTermText s) :
    Expression.IsTerm (tidyPlain s.toList) := by
  refine ⟨trim_tidyPlain _, fun hblank => ?_, Operator.cut?_eq_none_iff.mpr h.uncut⟩
  obtain ⟨c, hc, hvisible⟩ := h.visible
  rw [tidyPlain_eq_nil_iff.mp hblank c hc] at hvisible
  cases hvisible

variable {atlas : Atlas} {config : Config} {clock : Int}

/-- The term that a text is by itself. -/
def resolveTerm (atlas : Atlas) (config : Config) (clock : Int) (s : String) : Except Fault Term :=
  Term.resolve (atlas.clock config.mode) (config.now?.getD clock) (tidyPlain s.toList)

/-- The range that an operator makes of terms that texts are. -/
def combine (atlas : Atlas) (config : Config) (clock : Int) (operator? : Option Operator)
    (a? b? : Option String) : Except Fault Span := do
  let left? ← a?.mapM (resolveTerm atlas config clock)
  let right? ← b?.mapM (resolveTerm atlas config clock)
  (Span.ofTerms operator? left? right? (config.now?.getD clock) config.width).mapError .rejected

theorem combine_two (operator? : Option Operator) (a b : String) :
    combine atlas config clock operator? (some a) (some b) = (do
      let t ← resolveTerm atlas config clock a
      let u ← resolveTerm atlas config clock b
      (Span.ofTerms operator? (some t) (some u) (config.now?.getD clock) config.width).mapError
        .rejected) := by
  simp only [combine, mapM_some_bind]

theorem combine_of_ok {operator? : Option Operator} {a? b? : Option String}
    {left? right? : Option Term} (ha : a?.mapM (resolveTerm atlas config clock) = .ok left?)
    (hb : b?.mapM (resolveTerm atlas config clock) = .ok right?) :
    combine atlas config clock operator? a? b? =
      (Span.ofTerms operator? left? right? (config.now?.getD clock) config.width).mapError
        .rejected := by
  rw [combine, ha, hb]
  rfl

/-! ## Texts around an operator -/

/-- The expression that texts around an operator are, or a text alone. -/
def Expression.ofTexts (a? : Option String) (operator? : Option Operator) (b? : Option String) :
    Expression :=
  ⟨a?.map (tidyPlain ·.toList), operator?, b?.map (tidyPlain ·.toList)⟩

theorem resolve_ofTexts (a? : Option String) (operator? : Option Operator) (b? : Option String) :
    (Expression.ofTexts a? operator? b?).resolve (atlas.clock config.mode)
      (config.now?.getD clock) config.width = combine atlas config clock operator? a? b? := by
  simp only [Expression.resolve, Expression.ofTexts, combine, mapM_map]
  rfl

section

variable {a? b? : Option String} (ha : ∀ a ∈ a?, IsTermText a) (hb : ∀ b ∈ b?, IsTermText b)
  (op : Operator)

/-- Texts and an operator, with single spaces between them. -/
def spaced (a? : Option String) (op : Operator) (b? : Option String) : List Char :=
  unwords ((a?.map String.toList).toList ++ [op.token] ++ (b?.map String.toList).toList)

include ha hb

theorem tidyPlain_spaced : tidyPlain (spaced a? op b?) = (Expression.ofTexts a? op b?).write := by
  -- no piece is lost, so each can be read by itself
  have hpieces : ∀ x ∈ (a?.map String.toList).toList ++ [op.token] ++ (b?.map String.toList).toList,
      tidyPlain x ≠ [] := by
    intro x hx
    simp only [List.mem_append, Option.mem_toList, List.mem_singleton,
      Option.map_eq_some_iff] at hx
    rcases hx with (⟨a, hs, rfl⟩ | rfl) | ⟨b, hs, rfl⟩
    · exact (ha a hs).isTerm.nonempty
    · rw [tidyPlain_token]
      cases op <;> exact List.cons_ne_nil _ _
    · exact (hb b hs).isTerm.nonempty
  rw [spaced, tidyPlain_unwords hpieces, Expression.write, Expression.ofTexts]
  cases a? <;> cases b? <;> simp

theorem fits_ofTexts : (Expression.ofTexts a? op b?).Fits where
  left l hl := by
    obtain ⟨a, h, rfl⟩ := Option.map_eq_some_iff.mp hl
    exact (ha a h).isTerm
  right r hr := by
    obtain ⟨b, h, rfl⟩ := Option.map_eq_some_iff.mp hr
    exact (hb b h).isTerm
  lone := nofun

/-- Texts with an operator between them, or on one side of it, have the range that the operator
    makes of their terms. -/
theorem resolve_spaced {s : String} (hs : s.toList = spaced a? op b?) :
    resolve atlas config clock (some s) = combine atlas config clock (some op) a? b? := by
  have hread : Expression.read (tidyPlain s.toList) = .ok (Expression.ofTexts a? op b?) := by
    rw [hs, tidyPlain_spaced ha hb, Expression.read_write (fits_ofTexts ha hb op)]
  rw [resolve_of_read_operator hread rfl]
  exact resolve_ofTexts a? op b?

end

variable {a b : String} (ha : IsTermText a) (hb : IsTermText b) (op : Operator)

include ha hb in
theorem resolve_between : resolve atlas config clock (some (a ++ " " ++ op.text ++ " " ++ b)) =
    combine atlas config clock (some op) (some a) (some b) := by
  apply resolve_spaced
  · rintro _ ⟨⟩
    exact ha
  · rintro _ ⟨⟩
    exact hb
  · simp [spaced, unwords_cons, Operator.text]

include ha in
theorem resolve_after : resolve atlas config clock (some (a ++ " " ++ op.text)) =
    combine atlas config clock (some op) (some a) none := by
  apply resolve_spaced
  · rintro _ ⟨⟩
    exact ha
  · rintro _ ⟨⟩
  · simp [spaced, unwords_cons, Operator.text]

include hb in
theorem resolve_before : resolve atlas config clock (some (op.text ++ " " ++ b)) =
    combine atlas config clock (some op) none (some b) := by
  apply resolve_spaced
  · rintro _ ⟨⟩
  · rintro _ ⟨⟩
    exact hb
  · simp [spaced, unwords_cons, Operator.text]

include ha in
/-- A text without an operator is a term alone. -/
theorem resolve_alone (hname : a ≠ noFilter) :
    resolve atlas config clock (some a) = combine atlas config clock none (some a) none := by
  rw [resolve_of_read ha.isTerm.nonempty hname (Expression.read_of_term ha.isTerm)]
  exact resolve_ofTexts (some a) none none

/-! ## Terms by their kind -/

theorem isTermText_now : IsTermText "now" :=
  ⟨⟨'n', by decide, by decide⟩, Operator.cut?_eq_none_iff.mp (by decide)⟩

theorem resolveTerm_now :
    resolveTerm atlas config clock "now" = .ok (.now (config.now?.getD clock)) := by
  obtain ⟨hform, hname⟩ := Term.form_name .now
  rw [resolveTerm, show tidyPlain "now".toList = Keyword.now.name.toList by decide, Term.resolve_eq,
    hform]
  simp only [Keyword.resolveWord, hname]
  rfl

/-- Durations hold digits, letters and spaces alone, so no operator. -/
theorem isTermText_of_duration {d : Int}
    (h : resolveTerm atlas config clock a = .ok (.duration d)) : IsTermText a ∧ a ≠ noFilter := by
  obtain ⟨f, hform, -⟩ := Term.resolve_eq_duration_iff.mp h
  have hchars : ∀ c ∈ tidyPlain a.toList, isDigit (lower c) = true ∨ lower c = ' ' ∨
      isLowerLetter (lower c) = true := by
    intro c hc
    apply Term.mem_canonical_of_duration hform
    rw [Term.canonical, tidy_tidyPlain]
    exact List.mem_map_of_mem hc
  refine ⟨⟨?_, ?_⟩, ?_⟩
  · by_contra hblank
    have hnil : tidyPlain a.toList = [] :=
      tidyPlain_eq_nil_iff.mpr fun c hc => by
        by_contra hc'
        exact hblank ⟨c, hc, by simpa using hc'⟩
    rw [hnil] at hform
    cases hform
  · refine Operator.cut?_eq_none_iff.mp (Operator.cut?_eq_none fun c hc => ⟨?_, ?_⟩)
    · rintro rfl
      exact absurd (hchars _ hc) (by decide)
    · rintro rfl
      exact absurd (hchars _ hc) (by decide)
  · -- the text that asks for no range reads as a word
    rintro rfl
    have hword : Term.form (tidyPlain noFilter.toList) = .word "nofilter".toList := by
      decide +kernel
    rw [hword] at hform
    cases hform

/-- For points, a range from one to the other takes each bound from the range open to the other
    side. -/
theorem combine_points {a b : String} {t u : Term} {i j : Interval} {op : Operator}
    (ht : resolveTerm atlas config clock a = .ok t) (hu : resolveTerm atlas config clock b = .ok u)
    (hi : t.point? = some i) (hj : u.point? = some j) (hop : op.IsRange) :
    combine atlas config clock (some op) (some a) (some b) = .ok ⟨some i.start, some j.stop⟩ ∧
    combine atlas config clock (some op) (some a) none = .ok ⟨some i.start, none⟩ ∧
    combine atlas config clock (some op) none (some b) = .ok ⟨none, some j.stop⟩ := by
  have ha : (some a).mapM (resolveTerm atlas config clock) = .ok (some t) :=
    mapM_some_of_ok ht
  have hb : (some b).mapM (resolveTerm atlas config clock) = .ok (some u) :=
    mapM_some_of_ok hu
  refine ⟨?_, ?_, ?_⟩
  · rw [combine_of_ok ha hb, Span.ofTerms_eq_ok_iff.mpr (.between hop hi hj)]
    rfl
  · rw [combine_of_ok ha rfl, Span.ofTerms_eq_ok_iff.mpr (.onward hop hi)]
    rfl
  · rw [combine_of_ok rfl hb, Span.ofTerms_eq_ok_iff.mpr (.upTo hop hj)]
    rfl

/-! ## The law -/

/-- Texts around an operator have the range that it makes of the terms that they are, and the first
    term to fail is the one reported. So `<` and `->` are one, a range between points takes each
    bound from the range open to the other side, and a duration or the present instant by itself is
    short for the present instant widened. -/
theorem resolve_compositional (atlas : Atlas) (config : Config) (clock : Int) :
    (∀ a b op, IsTermText a → IsTermText b →
      resolve atlas config clock (some (a ++ " " ++ op.text ++ " " ++ b)) = (do
        let t ← resolveTerm atlas config clock a
        let u ← resolveTerm atlas config clock b
        (Span.ofTerms (some op) (some t) (some u) (config.now?.getD clock) config.width).mapError
          .rejected)) ∧
    (∀ a b, IsTermText a → IsTermText b →
      resolve atlas config clock (some (a ++ " < " ++ b)) =
        resolve atlas config clock (some (a ++ " -> " ++ b))) ∧
    (∀ a b t u i j, IsTermText a → IsTermText b → resolveTerm atlas config clock a = .ok t →
      resolveTerm atlas config clock b = .ok u → t.point? = some i → u.point? = some j →
      resolve atlas config clock (some (a ++ " -> " ++ b)) = .ok ⟨some i.start, some j.stop⟩ ∧
      resolve atlas config clock (some (a ++ " ->")) = .ok ⟨some i.start, none⟩ ∧
      resolve atlas config clock (some ("-> " ++ b)) = .ok ⟨none, some j.stop⟩) ∧
    (∀ a d, resolveTerm atlas config clock a = .ok (.duration d) →
      resolve atlas config clock (some a) = resolve atlas config clock (some ("now <> " ++ a))) ∧
    resolve atlas config clock (some "now") = resolve atlas config clock (some "now <>") := by
  have hless (a b : String) : a ++ " < " ++ b = a ++ " " ++ Operator.interval.text ++ " " ++ b := by
    simp only [String.append_assoc]
    rfl
  have harrow (a b : String) : a ++ " -> " ++ b = a ++ " " ++ Operator.arrow.text ++ " " ++ b := by
    simp only [String.append_assoc]
    rfl
  have hopen (a : String) : a ++ " ->" = a ++ " " ++ Operator.arrow.text := by
    rw [String.append_assoc]
    rfl
  have hnow : (some "now").mapM (resolveTerm atlas config clock) =
      .ok (some (.now (config.now?.getD clock))) :=
    mapM_some_of_ok resolveTerm_now
  refine ⟨?_, ?_, ?_, ?_, ?_⟩
  · intro a b op ha hb
    rw [resolve_between ha hb, combine_two]
  · intro a b ha hb
    rw [hless, harrow, resolve_between ha hb, resolve_between ha hb]
    rfl
  · intro a b t u i j ha hb ht hu hi hj
    have harrow' : Operator.arrow.IsRange := trivial
    obtain ⟨hboth, hleft, hright⟩ := combine_points ht hu hi hj harrow'
    rw [harrow, hopen, resolve_between ha hb, resolve_after ha]
    exact ⟨hboth, hleft, (resolve_before hb .arrow).trans hright⟩
  · intro a d h
    obtain ⟨ha, hname⟩ := isTermText_of_duration h
    have hd : (some a).mapM (resolveTerm atlas config clock) = .ok (some (.duration d)) :=
      mapM_some_of_ok h
    rw [resolve_alone ha hname, combine_of_ok hd rfl]
    exact ((resolve_between isTermText_now ha .around).trans (combine_of_ok hnow hd)).symm
  · rw [resolve_alone isTermText_now (by decide), combine_of_ok hnow rfl]
    exact ((resolve_after isTermText_now .around).trans (combine_of_ok hnow rfl)).symm

/-- The month of the first instant, written with a dash, before and around its day, and two days
    alone. -/
theorem resolve_compositional_dash :
    let config : Config := { utc := true, now? := some 0 }
    let run (s : String) := resolve (Atlas.ofHost "UTC0") config 0 (some s)
    IsTermText "1970—01" ∧ IsTermText "today" ∧
      run ("1970—01" ++ " -> " ++ "today") = .ok ⟨some 0, some 86400000⟩ ∧
      run ("1970—01" ++ " ->") = .ok ⟨some 0, none⟩ ∧
      run ("-> " ++ "today") = .ok ⟨none, some 86400000⟩ ∧
      run ("1970—01" ++ " " ++ "<>" ++ " " ++ "today") = .error (.rejected .widthExpected) ∧
      run "2 days" = run ("now <> " ++ "2 days") := by
  intro config run
  have ha : IsTermText "1970—01" :=
    ⟨⟨'1', by decide, by decide⟩, Operator.cut?_eq_none_iff.mp (by decide +kernel)⟩
  have hb : IsTermText "today" :=
    ⟨⟨'t', by decide, by decide⟩, Operator.cut?_eq_none_iff.mp (by decide +kernel)⟩
  have hmonth : resolveTerm (Atlas.ofHost "UTC0") config 0 "1970—01" =
      .ok (.interval ⟨0, 2678400000⟩) := by decide +kernel
  have hday : resolveTerm (Atlas.ofHost "UTC0") config 0 "today" =
      .ok (.interval ⟨0, 86400000⟩) := by decide +kernel
  have hdays : resolveTerm (Atlas.ofHost "UTC0") config 0 "2 days" =
      .ok (.duration 172800000) := by decide +kernel
  obtain ⟨hparts, -, hpoints, hduration, -⟩ :=
    resolve_compositional (Atlas.ofHost "UTC0") config 0
  obtain ⟨hrange, hleft, hright⟩ := hpoints _ _ _ _ _ _ ha hb hmonth hday rfl rfl
  refine ⟨ha, hb, hrange, hleft, hright, ?_, hduration _ _ hdays⟩
  have haround := hparts "1970—01" "today" .around ha hb
  rw [hmonth, hday] at haround
  exact haround

end Timespan
