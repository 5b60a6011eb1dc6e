/-
  When a term fails with an overlong numeral, which is no verdict on it. There are two ways: the
  count of a duration has too many digits, or the clock has to name an instant that does
  (`resolve_eq_overlongNumeral_iff`). All other failures are rejections.
-/
import Timespan.Proofs.Calendar.Bounds
import Timespan.Proofs.Term.Form

namespace Timespan

open Timespan.Calendar

/-! ## Clocks -/

namespace WallClock

/-- The clock can be read, but an instant that it does not reach could not be written. -/
def Unwritable (c : WallClock) (t : Int) : Prop :=
  (∃ z, c.zone = .ok z) ∧ Text.writable t = false

theorem zone_ne_overlongNumeral (c : WallClock) : c.zone ≠ .error .overlongNumeral := by
  cases c <;> simp [zone]

@[simp] theorem fieldsAt_eq_overlongNumeral_iff {c : WallClock} {t : Int} :
    c.fieldsAt t = .error .overlongNumeral ↔ c.Unwritable t := by
  simp only [fieldsAt, bind_eq_error_iff, zone_ne_overlongNumeral, false_or, Unwritable,
    ← exists_and_right]
  refine exists_congr fun z => and_congr_right fun _ => ?_
  constructor
  · intro h
    split at h
    · cases h
    · rw [Fault.instantOutOfRange] at h
      split at h
      · cases h
      · rename_i hw
        exact eq_false_of_ne_true hw
  · intro hw
    have hout : inCalendar t = false := by
      rw [← Bool.not_eq_true]
      intro hin
      rw [Text.writable_of_inCalendar hin] at hw
      cases hw
    rw [if_neg (by simp [hout]), Fault.instantOutOfRange, if_neg (by simp [hw])]

theorem instantOf_ne_overlongNumeral (c : WallClock) {v : Fields} (h : v.Within 99999) :
    c.instantOf v ≠ .error .overlongNumeral := by
  intro hv
  rcases bind_eq_error_iff.mp hv with hz | ⟨z, -, hv⟩
  · exact zone_ne_overlongNumeral c hz
  · split at hv
    · cases hv
    · rw [Fault.fieldsOutOfRange_of_within (h.cycleBack.mono (by decide))] at hv
      cases hv

theorem interval_ne_overlongNumeral (c : WallClock) {v : Fields} (h : v.Within 20000) (g : Grain)
    {n : Int} (hn : n.natAbs ≤ 7) : c.interval v g n ≠ .error .overlongNumeral := by
  intro hi
  rcases interval_eq_error_iff.mp hi with hi | ⟨-, hi⟩
  · exact instantOf_ne_overlongNumeral c (h.mono (by decide)) hi
  · exact instantOf_ne_overlongNumeral c ((h.add g n).mono (by omega)) hi

end WallClock

/-! ## Keywords and literals -/

theorem Period.start_ne_overlongNumeral (p : Period) {v : Fields} (h : v.Within 20000) :
    p.start v ≠ .error .overlongNumeral := by
  intro hs
  rw [Period.start, Fault.fieldsOutOfRange_of_within (h.mono (by decide))] at hs
  split at hs <;> cases hs

theorem Period.within_of_start {p : Period} {v s : Fields} (h : v.Within 10006)
    (hs : p.start v = .ok s) : s.Within 20000 := by
  rw [Period.start] at hs
  split at hs
  · rename_i s' hs'
    obtain rfl := Except.ok.inj hs
    cases p with
    | week => exact (h.weekStart? hs').mono (by decide)
    | quarter => exact (h.quarterStart? (by decide) hs').mono (by decide)
    | _ =>
      obtain rfl := Option.some.inj hs'
      exact h.mono (by decide)
  · cases hs

@[simp] theorem Keyword.periodInterval_eq_overlongNumeral_iff {c : WallClock} {origin : Int}
    {r : Relation} {p : Period} :
    periodInterval c origin r p = .error .overlongNumeral ↔ c.Unwritable origin := by
  rw [← WallClock.fieldsAt_eq_overlongNumeral_iff]
  constructor
  · intro h
    rcases periodInterval_eq_error_iff.mp h with h | ⟨v, hv, h⟩
    · exact h
    · have hlen : p.length.natAbs ≤ 7 := by cases p <;> decide
      have hstep : (r.sign * p.length).natAbs ≤ 7 := by cases r <;> cases p <;> decide
      have hcut : (v.truncate p.grain (r.sign * p.length)).Within 10006 :=
        (((WallClock.canonical_of_fieldsAt hv).within.floor (by decide) _).add _ _).mono (by omega)
      rcases h with h | ⟨s, hs, h⟩
      · exact absurd h (p.start_ne_overlongNumeral (hcut.mono (by decide)))
      · exact absurd h (c.interval_ne_overlongNumeral (p.within_of_start hcut hs) _ hlen)
  · intro h
    exact periodInterval_eq_error_iff.mpr (Or.inl h)

theorem Literal.canonical_complete {l : Literal} {now : Fields}
    (h : (l.complete now).fault? = none) : (l.complete now).Canonical := by
  have hmilli : (l.complete now).milli = 0 := rfl
  rw [Fields.canonical_iff]
  exact ⟨h, by omega⟩

@[simp] theorem Literal.resolve_eq_overlongNumeral_iff {c : WallClock} {origin : Int}
    {text : List Char} {l : Literal} :
    l.resolve c origin text = .error .overlongNumeral ↔ c.Unwritable origin := by
  rw [← WallClock.fieldsAt_eq_overlongNumeral_iff]
  constructor
  · intro h
    rcases bind_eq_error_iff.mp h with h | ⟨now, -, h⟩
    · exact h
    · dsimp only at h
      split at h
      · cases h
      · split at h
        · cases h
        · rename_i hf
          have hw := (canonical_complete hf).within.mono (c := 20000) (by decide)
          exact absurd h (c.interval_ne_overlongNumeral hw _ (by decide))
  · intro h
    exact bind_eq_error_iff.mpr (Or.inl h)

/-! ## Terms -/

namespace DurationForm

@[simp] theorem millis_eq_overlongNumeral_iff {d : DurationForm} :
    d.millis = .error .overlongNumeral ↔ Text.maxDigits < d.digits.length := by
  rw [millis]
  split
  · refine iff_of_false ?_ (by omega)
    intro h
    obtain ⟨_, -, h⟩ := mapError_eq_error_iff.mp h
    cases h
  · exact iff_of_true rfl (by omega)

end DurationForm

namespace Term

/-- A term that cannot be answered: a duration with too many digits, or a calendar range on a clock
    that would have to write an instant with too many. -/
def Overlong (c : WallClock) (origin : Int) (text : List Char) : Prop :=
  match form text with
  | .word w => (∃ r p, Keyword.ofName? w = some (.period r p)) ∧ c.Unwritable origin
  | .literal _ => c.Unwritable origin
  | .duration d => Text.maxDigits < d.digits.length
  | .unknown => False

@[simp] theorem resolve_eq_overlongNumeral_iff {c : WallClock} {origin : Int} {text : List Char} :
    resolve c origin text = .error .overlongNumeral ↔ Overlong c origin text := by
  rw [resolve_eq, Overlong]
  cases form text with
  | word w =>
    simp only [Keyword.resolveWord]
    cases Keyword.ofName? w with
    | none => simp
    | some k =>
      cases k with
      | now => simp [Keyword.resolve]
      | period r p =>
        simp [Keyword.resolve]
  | literal l => simp
  | duration d => simp
  | unknown => simp

end Term

end Timespan
