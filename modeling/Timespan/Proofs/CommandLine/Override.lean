/-
  Options over settings. An option that is given takes the place of its setting, with nothing of
  the setting left in the answer (`run_of_agrees`), and an option that is not given leaves the
  setting alone; but a malformed setting ends the program whatever the options are
  (`load_and_override`).
-/
import Timespan.CommandLine.Run
import Timespan.Proofs.Settings.Load
import Timespan.Zone.Atlas

namespace Timespan

variable {atlas : Atlas} {c c' : Config} {clock : Int}

/-! ## Values that are missing -/

namespace Vacancy

/-- The default width makes no difference to a range that is not reckoned with it, and it never
    decides whether there is a range. -/
theorem ofTerms_width (op? : Option Operator) (left? right? : Option Term) (origin w w' : Int) :
    Span.ofTerms op? left? right? origin w = Span.ofTerms op? left? right? origin w' ∨
      reckonsWidth op? left? right? = true ∧
        ∃ r r', Span.ofTerms op? left? right? origin w = .ok r ∧
          Span.ofTerms op? left? right? origin w' = .ok r' := by
  cases op? with
  | none =>
    cases left? with
    | none => exact Or.inl rfl
    | some t =>
      cases t with
      | interval i => exact Or.inl rfl
      | duration d => exact Or.inl rfl
      | now t => exact Or.inr ⟨rfl, _, _, rfl, rfl⟩
  | some op =>
    cases op with
    | interval => exact Or.inl rfl
    | arrow => exact Or.inl rfl
    | around =>
      cases left? with
      | none => exact Or.inl rfl
      | some t =>
        cases right? with
        | some u => exact Or.inl rfl
        | none =>
          cases hpoint : Span.point t with
          | error cause =>
            left
            simp only [Span.ofTerms, Span.around, hpoint]
            rfl
          | ok i =>
            refine Or.inr ⟨rfl, Span.widen i w, Span.widen i w', ?_, ?_⟩ <;>
              simp only [Span.ofTerms, Span.around, hpoint] <;> rfl

/-- A value that is missing has no part in the range. -/
theorem resolve_congr (v : Vacancy) (hmode : c.mode = c'.mode)
    (hnow : v.now = false → c.now? = c'.now?) (hwidth : v.width = false → c.width = c'.width)
    (text? : Option String) :
    v.resolve atlas c clock text? = v.resolve atlas c' clock text? := by
  have horigin : (if v.now then 0 else c.now?.getD clock) =
      if v.now then 0 else c'.now?.getD clock := by
    cases h : v.now with
    | true => rfl
    | false => rw [hnow h]
  simp only [resolve, hmode, horigin]
  cases expressionText? text? with
  | none => rfl
  | some s =>
    refine bind_congr fun e => bind_congr fun left? => bind_congr fun right? => ?_
    cases hw : v.width with
    | false => rw [hwidth hw]
    | true =>
      rcases ofTerms_width e.operator? left? right?
        (if v.now then 0 else c'.now?.getD clock) c.width c'.width with h | ⟨hreckons, r, r', h, h'⟩
      · rw [h]
      · rw [h, h', hreckons, Bool.and_true, Bool.or_true]
        rfl

/-- A range that is not reckoned with the missing width is the range with any width. -/
theorem resolve_of_now {v : Vacancy} (hv : v.now = false) {text? : Option String} {r : Span}
    (h : v.resolve atlas c clock text? = .ok r) : Timespan.resolve atlas c clock text? = .ok r := by
  rw [resolve] at h
  rw [Timespan.resolve]
  cases htext : expressionText? text? with
  | none =>
    rw [htext] at h
    cases h
  | some s =>
    rw [htext] at h
    have hterm : v.term (atlas.clock c.mode) (c.now?.getD clock) = fun text =>
        (Term.resolve (atlas.clock c.mode) (c.now?.getD clock) text).mapError .fault := by
      funext text
      simp [term, hv]
    simp only [hv, Bool.false_eq_true, if_false, hterm, ← mapM_mapError, bind_eq_ok_iff,
      mapError_eq_ok_iff] at h
    obtain ⟨e, hread, left?, hleft, right?, hright, span, hspan, h⟩ := h
    split at h
    · cases h
    · obtain rfl := Except.ok.inj h
      simp [resolveExpression, hread, hleft, hright, hspan]

end Vacancy

/-! ## Options -/

namespace CommandLine

/-- Options given take the place of settings, and no others do. Nothing in place of a zone is no
    zone. -/
structure Invocation.Overrides (i : Invocation) (c c' : Config) : Prop where
  utc_given : i.utc = true → c'.utc = true
  utc_absent : i.utc = false → c'.utc = c.utc
  zone_given : ∀ g, i.zone? = some g → c'.zone? = g.value?
  zone_absent : i.zone? = none → c'.zone? = c.zone?
  now_given : ∀ t, i.now? = some (.value t) → c'.now? = some t
  now_absent : i.now? = none → c'.now? = c.now?
  width_given : ∀ n, i.width? = some (.value n) → c'.width = n
  width_absent : i.width? = none → c'.width = c.width

theorem overrides_override (i : Invocation) (c : Config) : i.Overrides c (i.override c) := by
  refine ⟨?_, ?_, ?_, ?_, ?_, ?_, ?_, ?_⟩ <;> intros <;>
    simp_all [Invocation.override, Given.value?]

theorem config_eq_of_mode (hmode : c.mode = c'.mode) (hnow : c.now? = c'.now?)
    (hwidth : c.width = c'.width) : c = c' := by
  obtain ⟨utc, zone?, now?, width⟩ := c
  obtain ⟨utc', zone?', now?', width'⟩ := c'
  obtain ⟨rfl, rfl⟩ := Mode.mk.inj hmode
  cases hnow
  cases hwidth
  rfl

/-- Two configurations that differ only where an option is given. -/
structure Invocation.Agrees (i : Invocation) (c c' : Config) : Prop where
  utc : i.utc = false → c.utc = c'.utc
  zone : i.zone? = none → c.zone? = c'.zone?
  now : i.now? = none → c.now? = c'.now?
  width : i.width? = none → c.width = c'.width

variable {i : Invocation}

theorem Invocation.Agrees.mode_eq (h : i.Agrees c c') :
    (i.override c).mode = (i.override c').mode := by
  have hutc : (i.utc || c.utc) = (i.utc || c'.utc) := by
    cases hi : i.utc with
    | true => rfl
    | false => rw [h.utc hi]
  have hzone : (i.override c).zone? = (i.override c').zone? := by
    cases hi : i.zone? with
    | none => simp only [Invocation.override, hi, h.zone hi]
    | some g => simp only [Invocation.override, hi]
  rw [Config.mode, Config.mode, hzone]
  exact congrArg (Mode.mk · _) hutc

theorem Invocation.Agrees.now_eq (h : i.Agrees c c') (hi : i.vacancy.now = false) :
    (i.override c).now? = (i.override c').now? := by
  cases hnow : i.now? with
  | none => simp only [Invocation.override, hnow, h.now hnow]
  | some g =>
    cases g with
    | value t =>
      rw [(overrides_override i c).now_given t hnow, (overrides_override i c').now_given t hnow]
    | nothing => simp [Invocation.vacancy, hnow] at hi

theorem Invocation.Agrees.width_eq (h : i.Agrees c c') (hi : i.vacancy.width = false) :
    (i.override c).width = (i.override c').width := by
  cases hwidth : i.width? with
  | none => simp only [Invocation.override, hwidth, h.width hwidth]
  | some g =>
    cases g with
    | value n =>
      rw [(overrides_override i c).width_given n hwidth,
        (overrides_override i c').width_given n hwidth]
    | nothing => simp [Invocation.vacancy, hwidth] at hi

/-- Where an option is given, the answer does not depend on its setting; not even where the option
    was given nothing. -/
theorem run_of_agrees (h : i.Agrees c c') :
    i.run atlas (i.override c) clock = i.run atlas (i.override c') clock := by
  rw [Invocation.run, Invocation.run]
  split
  · rename_i hvacancy
    have hnow : i.vacancy.now = false := by rw [hvacancy]
    have hwidth : i.vacancy.width = false := by rw [hvacancy]
    rw [config_eq_of_mode h.mode_eq (h.now_eq hnow) (h.width_eq hwidth)]
  · have hresolve : i.vacancy.resolve atlas (i.override c) clock i.expression? =
        i.vacancy.resolve atlas (i.override c') clock i.expression? :=
      i.vacancy.resolve_congr h.mode_eq h.now_eq h.width_eq i.expression?
    rw [Invocation.vacantAnswer, Invocation.vacantAnswer, hresolve]
    cases hspan : i.vacancy.resolve atlas (i.override c') clock i.expression? with
    | error fault =>
      cases fault with
      | valueNeeded => rfl
      | fault fault => cases fault <;> rfl
    | ok r =>
      cases hv : i.vacancy.now with
      | true => rfl
      | false =>
        have hr := Vacancy.resolve_of_now hv hspan
        have hr' := Vacancy.resolve_of_now hv (hresolve.trans hspan)
        simp only [Bool.false_eq_true, if_false, Invocation.answer, interpret, hr, hr']

/-- Malformed settings end the program, whatever its options are. -/
theorem run_of_invalid {s : Sources} {ss : List Setting} {arguments : List String}
    (h : Config.load atlas s = .error (.invalid ss))
    (hi : readArguments atlas.host arguments = .ok i) :
    run atlas s clock arguments = .refused ("time-range-parser: error: Invalid settings: " ++
      ", ".intercalate (ss.map Setting.key) ++
      ". Fix them in the environment or the .env file.") := by
  have hprogram : program ++ ": error: " ++ "Invalid settings: " =
      "time-range-parser: error: Invalid settings: " := by decide
  rw [run, hi, h]
  simp only [SettingsFault.message?, refusal, ← String.append_assoc, hprogram]

/-- The program on settings from any sources, unless the present instant of the settings lies
    outside the calendar. It is refused, whatever its options, just when a setting is malformed,
    and it names all malformed settings in order. Else each setting is what its own text says or
    the default, and the options given take the place of their settings. -/
theorem load_and_override {s : Sources} (hin : Config.load atlas s ≠ .error .outsideCalendar) :
    ((∃ ss, Config.load atlas s = .error (.invalid ss)) ↔ ∃ x, s.Malformed atlas x) ∧
    (∀ ss, Config.load atlas s = .error (.invalid ss) →
      ss.Sublist [.utc, .zone, .now, .width] ∧ (∀ x, x ∈ ss ↔ s.Malformed atlas x) ∧
      ∀ clock arguments i, readArguments atlas.host arguments = .ok i →
        run atlas s clock arguments = .refused ("time-range-parser: error: Invalid settings: " ++
          ", ".intercalate (ss.map Setting.key) ++
          ". Fix them in the environment or the .env file.") ∧
        (run atlas s clock arguments).exitCode = 2) ∧
    ∀ c, Config.load atlas s = .ok c →
      c.Reflects atlas s ∧ 0 ≤ c.width ∧
      (∀ name, c.zone? = some name → (atlas.named? name).isSome) ∧
      (∀ s' c', Config.load atlas s' = .ok c' →
        ((∀ text, s.Effective .utc text ↔ s'.Effective .utc text) → c.utc = c'.utc) ∧
        ((∀ text, s.Effective .zone text ↔ s'.Effective .zone text) → c.zone? = c'.zone?) ∧
        ((∀ text, s.Effective .now text ↔ s'.Effective .now text) → c.now? = c'.now?) ∧
        ((∀ text, s.Effective .width text ↔ s'.Effective .width text) → c.width = c'.width)) ∧
      ∀ clock arguments i, readArguments atlas.host arguments = .ok i →
        run atlas s clock arguments = i.run atlas (i.override c) clock ∧
        i.Overrides c (i.override c) ∧
        ∀ c', i.Agrees c c' → i.run atlas (i.override c) clock =
          i.run atlas (i.override c') clock := by
  refine ⟨⟨?_, ?_⟩, ?_, ?_⟩
  · rintro ⟨ss, hload⟩
    exact (mem_of_load_eq_invalid hload).2.1
  · rintro ⟨x, hx⟩
    cases hload : Config.load atlas s with
    | ok c => exact absurd hx ((reflects_of_load hload).1 x)
    | error fault =>
      cases fault with
      | invalid ss => exact ⟨ss, rfl⟩
      | outsideCalendar => exact absurd hload hin
  · intro ss hload
    obtain ⟨horder, -, hmem⟩ := mem_of_load_eq_invalid hload
    refine ⟨horder, hmem, fun clock arguments i hi => ?_⟩
    rw [run_of_invalid hload hi]
    exact ⟨rfl, rfl⟩
  · intro c hload
    obtain ⟨-, hreflects⟩ := reflects_of_load hload
    refine ⟨hreflects, hreflects.sound.1, hreflects.sound.2, fun s' c' hload' => ?_,
      fun clock arguments i hi => ⟨?_, overrides_override i c, fun c' => run_of_agrees⟩⟩
    · exact hreflects.independent (reflects_of_load hload').2
    · rw [run, hi, hload]

/-- Three malformed settings, one of which an option would have overridden. The empty text of the
    environment leaves the present instant to the file. -/
theorem load_and_override_three_malformed :
    run (Atlas.ofHost "UTC0") ⟨[("TIME_RANGE_UTC", "maybe"), ("TIME_RANGE_NOW", "")],
        Assignments.read "TIME_RANGE_TZ=Mars\nTIME_RANGE_NOW=0\nTIME_RANGE_DEFAULT_RANGE_MS=-1"⟩
        0 ["parse", "--tz", "UTC", "now"] =
      .refused ("time-range-parser: error: Invalid settings: TIME_RANGE_UTC, TIME_RANGE_TZ, " ++
        "TIME_RANGE_DEFAULT_RANGE_MS. Fix them in the environment or the .env file.") := by
  have hload : Config.load (Atlas.ofHost "UTC0")
      ⟨[("TIME_RANGE_UTC", "maybe"), ("TIME_RANGE_NOW", "")],
        Assignments.read "TIME_RANGE_TZ=Mars\nTIME_RANGE_NOW=0\nTIME_RANGE_DEFAULT_RANGE_MS=-1"⟩ =
      .error (.invalid [.utc, .zone, .width]) := by
    decide +kernel
  have hi : readArguments (Atlas.ofHost "UTC0").host ["parse", "--tz", "UTC", "now"] =
      .ok { expression? := some "now", zone? := some (.value "UTC") } := by
    decide +kernel
  obtain ⟨-, hinvalid, -⟩ := load_and_override (by rw [hload]; simp)
  obtain ⟨-, -, hrun⟩ := hinvalid _ hload
  exact (hrun 0 _ _ hi).1

end CommandLine

end Timespan
