/-
  The three forms of a term, told apart once. `Term.resolve_eq` reads the resolution of a term off
  its form, and `Term.resolve_eq_interval_iff` says which calendar range a term names: from which
  fields it starts, and how many units of which field it holds.
-/
import Timespan.Proofs.Except
import Timespan.Term.Resolve

namespace Timespan

open Timespan.Calendar

theorem Keyword.periodInterval_eq_ok_iff {c : WallClock} {origin : Int} {r : Relation} {p : Period}
    {i : Interval} :
    periodInterval c origin r p = .ok i ↔
      ∃ now start, c.fieldsAt origin = .ok now ∧
        p.start (now.truncate p.grain (r.sign * p.length)) = .ok start ∧
        c.interval start p.grain p.length = .ok i := by
  simp [periodInterval]

/-- A period is not found if the clock fails, its start is not, or the range from there is not. -/
theorem Keyword.periodInterval_eq_error_iff {c : WallClock} {origin : Int} {r : Relation}
    {p : Period} {e : Fault} :
    periodInterval c origin r p = .error e ↔
      c.fieldsAt origin = .error e ∨ ∃ now, c.fieldsAt origin = .ok now ∧
        (p.start (now.truncate p.grain (r.sign * p.length)) = .error e ∨
          ∃ start, p.start (now.truncate p.grain (r.sign * p.length)) = .ok start ∧
            c.interval start p.grain p.length = .error e) := by
  simp [periodInterval]

theorem Literal.resolve_eq_ok_iff {c : WallClock} {origin : Int} {text : List Char} {l : Literal}
    {i : Interval} :
    l.resolve c origin text = .ok i ↔
      ∃ now g, c.fieldsAt origin = .ok now ∧ l.grain? = some g ∧
        (l.complete now).fault? = none ∧ c.interval (l.complete now) g 1 = .ok i := by
  simp only [resolve, bind_eq_ok_iff, exists_and_left]
  refine exists_congr fun now => and_congr_right fun _ => ?_
  cases l.grain? with
  | none => simp
  | some g => cases (l.complete now).fault? <;> simp

/-- What is read as a duration is written as digits and letters, with at most one space between. -/
theorem DurationForm.eq_of_read? {cs : List Char} {d : DurationForm} (h : read? cs = some d) :
    (cs = d.digits ++ d.unit ∨ cs = d.digits ++ ' ' :: d.unit) ∧
      (∀ c ∈ d.digits, Text.isDigit c = true) ∧ ∀ c ∈ d.unit, Text.isLowerLetter c = true := by
  have hread : ∀ unit : List Char, (if (cs.takeWhile Text.isDigit).isEmpty || unit.isEmpty ||
      !unit.all Text.isLowerLetter then none else
        some (⟨cs.takeWhile Text.isDigit, unit⟩ : DurationForm)) = some d →
      d.digits = cs.takeWhile Text.isDigit ∧ d.unit = unit ∧
        ∀ c ∈ unit, Text.isLowerLetter c = true := by
    intro unit h
    split at h
    · cases h
    · rename_i hform
      cases h
      simp only [Bool.or_eq_true, Bool.not_eq_true', not_or, Bool.not_eq_false] at hform
      exact ⟨rfl, rfl, List.all_eq_true.mp hform.2⟩
  have hdigits : ∀ c ∈ cs.takeWhile Text.isDigit, Text.isDigit c = true :=
    List.all_eq_true.mp List.all_takeWhile
  have hcs := List.takeWhile_append_dropWhile (p := Text.isDigit) (l := cs)
  simp only [read?] at h
  split at h
  · rename_i rest hrest
    obtain ⟨hd, hu, hletters⟩ := hread _ h
    rw [hrest] at hcs
    rw [hd, hu]
    exact ⟨Or.inr hcs.symm, hdigits, hletters⟩
  · obtain ⟨hd, hu, hletters⟩ := hread _ h
    rw [hd, hu]
    exact ⟨Or.inl hcs.symm, hdigits, hletters⟩

namespace Term

inductive Form where
  | word (word : List Char)
  | literal (literal : Literal)
  | duration (duration : DurationForm)
  | unknown
deriving DecidableEq, Repr

/-- The form of a text. -/
def form (text : List Char) : Form :=
  let term := canonical text
  let word := term.filter (· != ' ')
  if isWord word then .word word
  else
    match (Literal.read? term).filter (·.grain?.isSome) with
    | some l => .literal l
    | none =>
      match DurationForm.read? term with
      | some d => .duration d
      | none => .unknown

theorem resolve_eq (c : WallClock) (origin : Int) (text : List Char) :
    resolve c origin text =
      match form text with
      | .word w => Keyword.resolveWord c origin w
      | .literal l => (l.resolve c origin (canonical text)).map .interval
      | .duration d => d.millis.map .duration
      | .unknown => .error (.rejected (.unknownTerm (String.ofList text))) := by
  simp only [resolve, form]
  split
  · rfl
  · cases (Literal.read? (canonical text)).filter (·.grain?.isSome) with
    | some l => rfl
    | none => cases DurationForm.read? (canonical text) <;> rfl

/-- A keyword is written by its name. -/
theorem form_name (k : Keyword) :
    form k.name.toList = .word k.name.toList ∧ Keyword.ofName? k.name.toList = some k := by
  cases k with
  | now => decide +kernel
  | period r p => cases r <;> cases p <;> decide +kernel

@[simp] theorem resolveWord_name (c : WallClock) (origin : Int) (r : Relation) (p : Period) :
    Keyword.resolveWord c origin (Keyword.period r p).name.toList =
      (Keyword.periodInterval c origin r p).map .interval := by
  simp only [Keyword.resolveWord, (form_name (.period r p)).2, Keyword.resolve]

theorem resolve_name_eq_ok_iff {c : WallClock} {origin : Int} {r : Relation} {p : Period}
    {i : Interval} :
    resolve c origin (Keyword.period r p).name.toList = .ok (.interval i) ↔
      Keyword.periodInterval c origin r p = .ok i := by
  rw [resolve_eq, (form_name (.period r p)).1]
  simp

/-- The calendar range that a text names when the clock shows `origin`: the fields of its start, and
    how many units of which field it holds. -/
inductive Names (c : WallClock) (origin : Int) (text : List Char) : Fields → Grain → Int → Prop
  | period {word : List Char} {r : Relation} {p : Period} {now start : Fields}
      (hform : form text = .word word) (hword : Keyword.ofName? word = some (.period r p))
      (hnow : c.fieldsAt origin = .ok now)
      (hstart : p.start (now.truncate p.grain (r.sign * p.length)) = .ok start) :
      Names c origin text start p.grain p.length
  | literal {l : Literal} {g : Grain} {now : Fields}
      (hform : form text = .literal l) (hgrain : l.grain? = some g)
      (hnow : c.fieldsAt origin = .ok now) (hvalid : (l.complete now).fault? = none) :
      Names c origin text (l.complete now) g 1

theorem resolve_eq_interval_iff {c : WallClock} {origin : Int} {text : List Char} {i : Interval} :
    resolve c origin text = .ok (.interval i) ↔
      ∃ v g n, Names c origin text v g n ∧ c.interval v g n = .ok i := by
  rw [resolve_eq]
  constructor
  · intro h
    split at h
    · rename_i w hform
      rw [Keyword.resolveWord] at h
      split at h
      · rename_i k hword
        cases k with
        | now => cases h
        | period r p =>
          obtain ⟨j, hj, hi⟩ := map_eq_ok_iff.mp h
          cases hi
          obtain ⟨now, start, hnow, hstart, hj⟩ := Keyword.periodInterval_eq_ok_iff.mp hj
          exact ⟨_, _, _, .period hform hword hnow hstart, hj⟩
      · cases h
    · rename_i l hform
      obtain ⟨j, hj, hi⟩ := map_eq_ok_iff.mp h
      cases hi
      obtain ⟨now, g, hnow, hgrain, hvalid, hj⟩ := Literal.resolve_eq_ok_iff.mp hj
      exact ⟨_, _, _, .literal hform hgrain hnow hvalid, hj⟩
    · obtain ⟨_, _, h⟩ := map_eq_ok_iff.mp h
      cases h
    · cases h
  · rintro ⟨v, g, n, hn, hi⟩
    cases hn with
    | period hform hword hnow hstart =>
      rw [hform]
      simp only [Keyword.resolveWord, hword, Keyword.resolve, map_eq_ok_iff]
      exact ⟨i, Keyword.periodInterval_eq_ok_iff.mpr ⟨_, _, hnow, hstart, hi⟩, rfl⟩
    | literal hform hgrain hnow hvalid =>
      rw [hform]
      simp only [map_eq_ok_iff]
      exact ⟨i, Literal.resolve_eq_ok_iff.mpr ⟨_, _, hnow, hgrain, hvalid, hi⟩, rfl⟩

theorem read?_of_form_eq_duration {text : List Char} {d : DurationForm}
    (h : form text = .duration d) :
    DurationForm.read? (canonical text) = some d := by
  simp only [form] at h
  split at h
  · cases h
  · split at h
    · cases h
    · split at h
      · rename_i hread
        cases h
        exact hread
      · cases h

/-- A duration is written in digits, letters and spaces. -/
theorem mem_canonical_of_duration {text : List Char} {d : DurationForm}
    (h : form text = .duration d) {c : Char} (hc : c ∈ canonical text) :
    Text.isDigit c = true ∨ c = ' ' ∨ Text.isLowerLetter c = true := by
  obtain ⟨hcs, hdigits, hletters⟩ := DurationForm.eq_of_read? (read?_of_form_eq_duration h)
  rcases hcs with hcs | hcs
  · rw [hcs, List.mem_append] at hc
    exact hc.imp (hdigits c) fun hc => Or.inr (hletters c hc)
  · rw [hcs, List.mem_append, List.mem_cons] at hc
    exact hc.imp (hdigits c) (Or.imp_right (hletters c))

theorem resolve_eq_duration_iff {c : WallClock} {origin : Int} {text : List Char} {d : Int} :
    resolve c origin text = .ok (.duration d) ↔
      ∃ f, form text = .duration f ∧ f.millis = .ok d := by
  rw [resolve_eq]
  cases form text with
  | word w =>
    simp only [Keyword.resolveWord]
    cases Keyword.ofName? w with
    | none => simp
    | some k => cases k <;> simp [Keyword.resolve]
  | literal l => simp
  | duration f => simp
  | unknown => simp

theorem resolve_eq_now_iff {c : WallClock} {origin : Int} {text : List Char} {t : Int} :
    resolve c origin text = .ok (.now t) ↔
      (∃ w, form text = .word w ∧ Keyword.ofName? w = some .now) ∧ t = origin := by
  rw [resolve_eq]
  cases form text with
  | word w =>
    simp only [Keyword.resolveWord]
    cases hname : Keyword.ofName? w with
    | none => simp [hname]
    | some k => cases k <;> simp [Keyword.resolve, eq_comm, hname]
  | literal l => simp
  | duration f => simp
  | unknown => simp

end Term

end Timespan
