/-
  Sessions. What a step can do is said once (`step_cases`). So a clock and a configuration come to be
  what its reply shows, and a step whose reply shows neither leaves the session alone. Over a run:

  * the replies tell the session after it (`after_eq_foldl_told`);
  * steps that fail change nothing, and can be left out of it with the other replies and the session
    at the end as they were (`run_accepted`, `after_accepted`);
  * while the present instant is fixed, the replies do not depend on the clock (`Alike.run_eq`).
-/
import Timespan.Proofs.Answer
import Timespan.Session

namespace Timespan.Session

variable {atlas : Atlas} {s s' : Session} {st : Step} {reply : Reply} {steps : List Step}

/-- Does a reply tell of a failure? An answer that rejects a text does not. -/
def Reply.fails : Reply → Bool
  | .fault _ | .unknownField => true
  | .outcome _ | .span _ | .clock _ | .config _ => false

/-! ## One step -/

/-- All that a step can do: fail, answer a text under the settings and the clock of the session, set
    the clock, or set the configuration. -/
theorem step_cases (h : s.step atlas st = (s', reply)) :
    (s' = s ∧ reply.fails = true) ∨
    (∃ text? outcome, st = .interpret text? ∧
      Timespan.interpret atlas s.config s.clock text? = .ok outcome ∧
      s' = s ∧ reply = .outcome outcome) ∨
    (∃ text? span, st = .resolve text? ∧
      Timespan.resolve atlas s.config s.clock text? = .ok span ∧ s' = s ∧ reply = .span span) ∨
    (∃ t, (st = .setClock t ∨ ∃ n, st = .tick n ∧ t = s.clock + n) ∧
      s' = { s with clock := t } ∧ reply = .clock t) ∨
    ∃ changes c, st = .replace changes ∧ changes.foldlM ConfigChange.apply? s.config = some c ∧
      s' = { s with config := c } ∧ reply = .config c := by
  cases st with
  | interpret text? =>
    simp only [step] at h
    split at h <;> rename_i hanswer <;> cases h
    · exact .inr (.inl ⟨_, _, rfl, hanswer, rfl, rfl⟩)
    · exact .inl ⟨rfl, rfl⟩
  | resolve text? =>
    simp only [step] at h
    split at h <;> rename_i hanswer <;> cases h
    · exact .inr (.inr (.inl ⟨_, _, rfl, hanswer, rfl, rfl⟩))
    · exact .inl ⟨rfl, rfl⟩
  | setClock t =>
    cases h
    exact .inr (.inr (.inr (.inl ⟨_, .inl rfl, rfl, rfl⟩)))
  | tick n =>
    cases h
    exact .inr (.inr (.inr (.inl ⟨_, .inr ⟨n, rfl, rfl⟩, rfl, rfl⟩)))
  | replace changes =>
    simp only [step] at h
    split at h <;> rename_i hchanged <;> cases h
    · exact .inr (.inr (.inr (.inr ⟨_, _, rfl, hchanged, rfl, rfl⟩)))
    · exact .inl ⟨rfl, rfl⟩

/-- The session with the clock or the configuration that a reply shows. -/
def told (s : Session) : Reply → Session
  | .clock t => { s with clock := t }
  | .config c => { s with config := c }
  | .outcome _ | .span _ | .fault _ | .unknownField => s

theorem told_of_fails (h : reply.fails = true) : s.told reply = s := by
  cases reply <;> first | rfl | cases h

theorem step_fst (s : Session) (st : Step) : (s.step atlas st).1 = s.told (s.step atlas st).2 := by
  obtain ⟨hs, hfails⟩ | ⟨_, _, -, -, hs, hreply⟩ | ⟨_, _, -, -, hs, hreply⟩ |
    ⟨_, -, hs, hreply⟩ | ⟨_, _, -, -, hs, hreply⟩ :=
    step_cases (Prod.mk.eta (p := s.step atlas st)).symm
  · rw [hs, told_of_fails hfails]
  all_goals rw [hs, hreply, told]

/-- Whatever fails changes nothing. -/
theorem step_fst_of_fails (h : (s.step atlas st).2.fails = true) : (s.step atlas st).1 = s := by
  rw [step_fst, told_of_fails h]

/-! ## Runs -/

/-- The session after a list of steps. -/
def after (atlas : Atlas) (s : Session) : List Step → Session
  | [] => s
  | st :: steps => (s.step atlas st).1.after atlas steps

@[simp] theorem run_nil (s : Session) : s.run atlas [] = [] := rfl

@[simp] theorem run_cons (s : Session) (st : Step) (steps : List Step) :
    s.run atlas (st :: steps) = (s.step atlas st).2 :: (s.step atlas st).1.run atlas steps := rfl

/-- A run goes on from where another ends. -/
theorem run_append (s : Session) (xs ys : List Step) :
    s.run atlas (xs ++ ys) = s.run atlas xs ++ (s.after atlas xs).run atlas ys := by
  induction xs generalizing s with
  | nil => rfl
  | cons st xs ih => simp [after, ih]

/-- Clock and configuration after a run are the last that its replies show. -/
theorem after_eq_foldl_told (s : Session) (steps : List Step) :
    s.after atlas steps = (s.run atlas steps).foldl told s := by
  induction steps generalizing s with
  | nil => rfl
  | cons st steps ih => rw [after, ih, run_cons, List.foldl_cons, step_fst]

/-- The steps of a run that do not fail. -/
def accepted (atlas : Atlas) (s : Session) : List Step → List Step
  | [] => []
  | st :: steps =>
    let (s', reply) := s.step atlas st
    if reply.fails then s'.accepted atlas steps else st :: s'.accepted atlas steps

/-- Without the steps that fail a run has the same replies, less theirs. -/
theorem run_accepted (s : Session) (steps : List Step) :
    s.run atlas (s.accepted atlas steps) = (s.run atlas steps).filter (!·.fails) := by
  induction steps generalizing s with
  | nil => rfl
  | cons st steps ih =>
    unfold accepted
    by_cases h : (s.step atlas st).2.fails = true
    · simp [h, ← ih, step_fst_of_fails h]
    · simp [h, ih]

theorem after_accepted (s : Session) (steps : List Step) :
    s.after atlas (s.accepted atlas steps) = s.after atlas steps := by
  have hfold : (fun s reply => if !reply.fails then told s reply else s) = told := by
    funext s reply
    cases h : reply.fails with
    | false => rfl
    | true => exact (told_of_fails h).symm
  rw [after_eq_foldl_told, run_accepted, List.foldl_filter, hfold, ← after_eq_foldl_told]

/-! ## Sessions with a fixed present instant -/

/-- A step that does not show how far the clock has come, and does not give the present instant back
    to it. -/
def Step.ClockFree : Step → Prop
  | .interpret _ | .resolve _ | .setClock _ => True
  | .tick _ => False
  | .replace changes => .now none ∉ changes

/-- Sessions that differ at most in their clocks, with a present instant that is not the clocks'. -/
structure Alike (a b : Session) : Prop where
  config : a.config = b.config
  fixed : a.config.now?.isSome = true

theorem fixed_of_change {c c' : Config} {change : ConfigChange}
    (hc : c.now?.isSome = true) (hchange : .now none ≠ change) (h : change.apply? c = some c') :
    c'.now?.isSome = true := by
  cases change with
  | now value =>
    cases h
    cases value with
    | none => exact absurd rfl hchange
    | some t => rfl
  | utc value => cases h; exact hc
  | zone value => cases h; exact hc
  | width value => cases h; exact hc
  | unknown field => cases h

theorem fixed_foldlM {c c' : Config} {changes : List ConfigChange} (hc : c.now?.isSome = true)
    (hchanges : .now none ∉ changes) (h : changes.foldlM ConfigChange.apply? c = some c') :
    c'.now?.isSome = true := by
  induction changes generalizing c with
  | nil =>
    cases h
    exact hc
  | cons change changes ih =>
    obtain ⟨hne, hrest⟩ := not_or.mp (mt List.mem_cons.mpr hchanges)
    obtain ⟨d, hd, h⟩ := Option.bind_eq_some_iff.mp h
    exact ih (fixed_of_change hc hne hd) hrest h

variable {a b : Session}

/-- A step that is free of the clock gets one reply in both, and they stay alike. -/
theorem Alike.step (atlas : Atlas) (h : Alike a b) (hst : st.ClockFree) :
    (a.step atlas st).2 = (b.step atlas st).2 ∧ Alike (a.step atlas st).1 (b.step atlas st).1 := by
  obtain ⟨config, clock⟩ := a
  obtain ⟨config', clock'⟩ := b
  obtain ⟨rfl, hfixed⟩ := h
  obtain ⟨t, hnow⟩ := Option.isSome_iff_exists.mp hfixed
  cases st with
  | interpret text? =>
    simp only [Session.step, interpret_clock atlas text? hnow clock clock']
    split <;> exact ⟨rfl, rfl, hfixed⟩
  | resolve text? =>
    simp only [Session.step, resolve_clock atlas text? hnow clock clock']
    split <;> exact ⟨rfl, rfl, hfixed⟩
  | setClock t => exact ⟨rfl, rfl, hfixed⟩
  | tick n => cases hst
  | replace changes =>
    unfold Session.step
    dsimp only
    split
    · rename_i config' hchanged
      exact ⟨rfl, rfl, fixed_foldlM hfixed hst hchanged⟩
    · exact ⟨rfl, rfl, hfixed⟩

/-- So whole runs of such steps get the same replies, wherever the clocks stand. -/
theorem Alike.run_eq (h : Alike a b) (hsteps : ∀ st ∈ steps, st.ClockFree) :
    a.run atlas steps = b.run atlas steps := by
  induction steps generalizing a b with
  | nil => rfl
  | cons st steps ih =>
    obtain ⟨hst, hrest⟩ := List.forall_mem_cons.mp hsteps
    obtain ⟨hreply, halike⟩ := h.step atlas hst
    rw [run_cons, run_cons, hreply, ih halike hrest]

end Timespan.Session
