/-
  What a term takes over from the present. A literal that gives its year takes nothing, a time of
  day the date, and a keyword the fields of the present down to the grain of its period. Two
  presents that agree so far give the same outcome, a rejection included, and a text that takes
  nothing at all does not even ask whether the clock can be read (`resolve_inherits`).
-/
import Timespan.Proofs.Term.Read
import Timespan.Proofs.Zone.Yearly

namespace Timespan

open Timespan.Calendar

/-! ## Agreement down to a grain -/

/-- Fields that agree down to a grain are cut to the same unit. -/
theorem Calendar.Fields.floor_eq_of_take {v w : Fields} {g : Grain}
    (h : v.toList.take (g.index + 1) = w.toList.take (g.index + 1)) : v.floor g = w.floor g := by
  obtain ⟨year, month, day, hour, minute, second, milli⟩ := v
  cases g <;> simp_all [toList, Grain.index, floor]

/-- How many fields of the present, coarsest first, a keyword of the period takes over. -/
def Period.inherited : Period → Nat
  | .day | .week => 3
  | .month | .quarter => 2
  | .year => 1

theorem Period.inherited_eq (p : Period) : p.inherited = p.grain.index + 1 := by
  cases p <;> rfl

theorem Keyword.periodInterval_congr {c : WallClock} {t u : Int} {v w : Fields} {p : Period}
    (ht : c.fieldsAt t = .ok v) (hu : c.fieldsAt u = .ok w)
    (h : v.toList.take p.inherited = w.toList.take p.inherited) (r : Relation) :
    periodInterval c t r p = periodInterval c u r p := by
  rw [p.inherited_eq] at h
  simp [periodInterval, ht, hu, Fields.truncate, Fields.floor_eq_of_take h]

/-- A literal with a date is complete by itself; one without takes over the date. -/
theorem Literal.complete_congr {l : Literal} {v w : Fields} (hl : l.grain?.isSome = true)
    (h : l.date?.isSome = false → v.toList.take 3 = w.toList.take 3) :
    l.complete v = l.complete w := by
  obtain ⟨date?, time?⟩ := l
  cases date? with
  | some d => cases d <;> cases time? with
    | none => rfl
    | some t => cases t <;> rfl
  | none =>
    have hdate := h rfl
    simp only [Fields.toList, List.take_succ_cons, List.cons.injEq] at hdate
    obtain ⟨hyear, hmonth, hday, -⟩ := hdate
    cases time? with
    | none => cases hl
    | some t => cases t <;> simp only [complete, TimePart.fill, hyear, hmonth, hday]

theorem Literal.resolve_congr {c : WallClock} {t u : Int} {v w : Fields} {l : Literal}
    (ht : c.fieldsAt t = .ok v) (hu : c.fieldsAt u = .ok w)
    (h : l.complete v = l.complete w) (text : List Char) :
    l.resolve c t text = l.resolve c u text := by
  simp [resolve, ht, hu, h]

/-- Why a clock that can be read shows no fields. -/
theorem WallClock.fieldsAt_eq_error {c : WallClock} {z : Zone} {t : Int} (hz : c.zone = .ok z)
    (hout : ∀ v, c.fieldsAt t ≠ .ok v) (hw : Text.writable t = true) :
    c.fieldsAt t = .error (.rejected (.instantOutOfRange t)) := by
  simp only [fieldsAt, hz, ok_bind] at hout ⊢
  split
  · rename_i hin
    rw [if_pos hin] at hout
    exact absurd rfl (hout _)
  · rw [Fault.instantOutOfRange, if_pos hw]

/-! ## Terms -/

namespace Term

/-- How many fields of the present, coarsest first, a text takes over. -/
inductive Inherits (text : List Char) : Nat → Prop
  | dated {l : Literal} (hform : form text = .literal l)
      (hyear : Text.BeginsWithDigits 4 (canonical text)) : Inherits text 0
  | timed {l : Literal} (hform : form text = .literal l)
      (hyear : ¬ Text.BeginsWithDigits 4 (canonical text)) : Inherits text 3
  | period {word : List Char} {r : Relation} {p : Period} (hform : form text = .word word)
      (hword : Keyword.ofName? word = some (.period r p)) : Inherits text p.inherited

/-- The text is a duration, a word that is no keyword, or no term. -/
inductive Timeless (text : List Char) : Prop
  | duration {d : DurationForm} (hform : form text = .duration d)
  | word {word : List Char} (hform : form text = .word word)
      (hword : Keyword.ofName? word = none)
  | unknown (hform : form text = .unknown)

variable {c : WallClock} {text : List Char} {k : Nat} {t u : Int} {v w : Fields}

theorem Inherits.resolve_eq (h : Inherits text k) (ht : c.fieldsAt t = .ok v)
    (hu : c.fieldsAt u = .ok w) (hk : v.toList.take k = w.toList.take k) :
    resolve c t text = resolve c u text := by
  have hliteral : ∀ l, form text = .literal l →
      (¬ Text.BeginsWithDigits 4 (canonical text) → v.toList.take 3 = w.toList.take 3) →
      resolve c t text = resolve c u text := by
    intro l hform hdate
    obtain ⟨hread, hgrain⟩ := form_eq_literal_iff.mp hform
    have hcomplete : l.complete v = l.complete w := by
      refine Literal.complete_congr hgrain fun hnone => hdate fun hyear => ?_
      rw [(Literal.date?_isSome_iff hread).mpr hyear] at hnone
      cases hnone
    simp only [Term.resolve_eq, hform, Literal.resolve_congr ht hu hcomplete]
  cases h with
  | dated hform hyear => exact hliteral _ hform fun hno => absurd hyear hno
  | timed hform hyear => exact hliteral _ hform fun _ => hk
  | period hform hword =>
    simp only [Term.resolve_eq, hform, Keyword.resolveWord, hword, Keyword.resolve,
      Keyword.periodInterval_congr ht hu hk]

theorem Timeless.resolve_eq (h : Timeless text) (c : WallClock) (t u : Int) :
    resolve c t text = resolve c u text := by
  cases h with
  | duration hform | unknown hform => simp only [Term.resolve_eq, hform]
  | word hform hword => simp only [Term.resolve_eq, hform, Keyword.resolveWord, hword]

/-- A term that takes fields over fails as the clock does. -/
theorem Inherits.resolve_eq_error {e : Fault} (h : Inherits text k) (ht : c.fieldsAt t = .error e) :
    resolve c t text = .error e := by
  have hliteral : ∀ l, form text = .literal l → resolve c t text = .error e := by
    intro l hform
    rw [Term.resolve_eq, hform]
    simp [Literal.resolve, ht]
  cases h with
  | dated hform _ | timed hform _ => exact hliteral _ hform
  | period hform hword =>
    simp [Term.resolve_eq, hform, Keyword.resolveWord, hword, Keyword.resolve,
      Keyword.periodInterval, ht]

/-- Every text but that of the present instant takes over a number of fields or nothing. -/
theorem inherits_or_timeless (text : List Char) :
    (∃ k, Inherits text k) ∨ Timeless text ∨
      ∃ word, form text = .word word ∧ Keyword.ofName? word = some .now := by
  cases hform : form text with
  | word word =>
    cases hword : Keyword.ofName? word with
    | none => exact Or.inr (Or.inl (.word hform hword))
    | some k =>
      cases k with
      | now => exact Or.inr (Or.inr ⟨word, rfl, hword⟩)
      | period r p => exact Or.inl ⟨_, .period hform hword⟩
  | literal l =>
    by_cases hyear : Text.BeginsWithDigits 4 (canonical text)
    · exact Or.inl ⟨_, .dated hform hyear⟩
    · exact Or.inl ⟨_, .timed hform hyear⟩
  | duration d => exact Or.inr (Or.inl (.duration hform))
  | unknown => exact Or.inr (Or.inl (.unknown hform))

/-- The present counts only for the fields that a term takes over: on every clock two instants that
    show the same ones give the same outcome. A text that takes over nothing has one outcome at all
    instants, those included at which the clock shows nothing; at these all other texts are out of
    range, save the name of the present instant, which is itself at every time. -/
theorem resolve_inherits (c : WallClock) (text : List Char) :
    (∀ k, Inherits text k → ∀ t u v w, c.fieldsAt t = .ok v → c.fieldsAt u = .ok w →
      v.toList.take k = w.toList.take k → resolve c t text = resolve c u text) ∧
    (Timeless text → ∀ t u, resolve c t text = resolve c u text) ∧
    (∀ k, Inherits text k → ∀ z t, c.zone = .ok z → (∀ v, c.fieldsAt t ≠ .ok v) →
      Text.writable t = true →
      ∃ cause, resolve c t text = .error (.rejected cause) ∧ cause.kind = .outOfRange) ∧
    ((∃ k, Inherits text k) ∨ Timeless text ∨ ∀ t, resolve c t text = .ok (.now t)) := by
  refine ⟨fun k h t u v w ht hu hk => h.resolve_eq ht hu hk, fun h t u => h.resolve_eq c t u,
    fun k h z t hz hout hw => ?_, ?_⟩
  · exact ⟨_, h.resolve_eq_error (WallClock.fieldsAt_eq_error hz hout hw), rfl⟩
  · refine (inherits_or_timeless text).imp_right (Or.imp_right fun hnow t => ?_)
    exact resolve_eq_now_iff.mpr ⟨hnow, rfl⟩

/-- On the day on which eastern summer time ends a time of day is the same range from its first
    millisecond to its last, in either pass of the hour; and one millisecond after the calendar the
    month is out of range, though two days are as long as ever. -/
theorem resolve_inherits_clocks_back :
    resolve (.zoned Zone.eastern) 1636257600000 "01:30".toList =
      resolve (.zoned Zone.eastern) 1636347599999 "01:30".toList ∧
    resolve (.zoned Zone.eastern) 253402300800000 "2 days".toList =
      resolve (.zoned Zone.eastern) 0 "2 days".toList ∧
    ∃ cause, resolve (.zoned Zone.eastern) 253402300800000 "this month".toList =
      .error (.rejected cause) ∧ cause.kind = .outOfRange := by
  have htime : Inherits "01:30".toList 3 :=
    .timed (l := ⟨none, some (.minute 1 30)⟩) (by decide +kernel) (by decide +kernel)
  have hdays : Timeless "2 days".toList :=
    .duration (d := ⟨['2'], "days".toList⟩) (by decide +kernel)
  have hmonth : Inherits "this month".toList 2 := by
    have hform : form "this month".toList = .word "thismonth".toList := by decide +kernel
    exact .period (r := .this) (p := .month) hform (by decide +kernel)
  have hout : (WallClock.zoned Zone.eastern).fieldsAt 253402300800000 =
      .error (.rejected (.instantOutOfRange 253402300800000)) := by decide +kernel
  refine ⟨?_, (resolve_inherits _ _).2.1 hdays _ _, ?_⟩
  · exact (resolve_inherits _ _).1 3 htime _ _ ⟨2021, 11, 7, 0, 0, 0, 0⟩
      ⟨2021, 11, 7, 23, 59, 59, 999⟩ (by decide +kernel) (by decide +kernel) rfl
  · refine (resolve_inherits _ _).2.2.1 2 hmonth _ _ rfl (fun v => ?_) (by decide +kernel)
    rw [hout]
    simp

end Term

end Timespan
