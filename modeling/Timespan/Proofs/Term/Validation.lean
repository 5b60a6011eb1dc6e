/-
  Which literals have a range. A literal completes to fields in one way: what it gives, before that
  what the present shows, and behind it first values (`Literal.completes_iff`). The check of these
  fields is the only one that counts. Once they are a date and a time of day, the clock of a zone
  known by name finds both ends of their unit, though the unit may stop after the last year
  (`Term.resolve_literal_zoned`).
-/
import Timespan.Proofs.Clock.RoundTrip
import Timespan.Proofs.Term.Denotation
import Timespan.Proofs.Term.Overlong

namespace Timespan

open Timespan.Calendar

/-! ## The fields that a literal completes to -/

/-- The number that a date gives for a field. -/
def DatePart.part? : DatePart → Grain → Option Nat
  | .year y, .year | .month y _, .year | .day y _ _, .year => some y
  | .month _ m, .month | .day _ m _, .month => some m
  | .day _ _ d, .day => some d
  | _, _ => none

/-- The number that a time of day gives for a field. -/
def TimePart.part? : TimePart → Grain → Option Nat
  | .hour h, .hour | .minute h _, .hour | .second h _ _, .hour => some h
  | .minute _ m, .minute | .second _ m _, .minute => some m
  | .second _ _ s, .second => some s
  | _, _ => none

/-- The first value of a field that can be left open. -/
def Calendar.Grain.first : Grain → Int
  | .year | .month | .day => 1
  | .hour | .minute | .second | .milli => 0

namespace Literal

/-- The number that a literal gives for a field. -/
def part? (l : Literal) (g : Grain) : Option Nat :=
  (l.date?.bind (·.part? g)).or (l.time?.bind (·.part? g))

/-- The fields hold what the literal gives, what the present shows before the first field given, and
    first values behind it. -/
structure Completes (l : Literal) (now v : Fields) : Prop where
  given : ∀ g n, l.part? g = some n → v.get g = n
  taken : ∀ g, (∀ k : Grain, k.index ≤ g.index → l.part? k = none) → v.get g = now.get g
  first : ∀ g, l.part? g = none → (∃ k : Grain, k.index < g.index ∧ (l.part? k).isSome = true) →
    v.get g = g.first

variable {l : Literal} {now v w : Fields} {g : Grain}

/-- Behind a date every field is given or at its first value. -/
theorem get_complete_dated (d : DatePart) (time? : Option TimePart) (now : Fields) (g : Grain) :
    ((⟨some d, time?⟩ : Literal).complete now).get g =
      (((⟨some d, time?⟩ : Literal).part? g).map Int.ofNat).getD g.first := by
  cases time? with
  | none => cases d <;> cases g <;> rfl
  | some t => cases d <;> cases t <;> cases g <;> rfl

/-- A time of day leaves the date to the present, and every field from its hour on is given or at
    its first value. -/
theorem get_complete_timed (t : TimePart) (now : Fields) (g : Grain) :
    ((⟨none, some t⟩ : Literal).complete now).get g =
      if g.index < Grain.hour.index then now.get g
      else (((⟨none, some t⟩ : Literal).part? g).map Int.ofNat).getD g.first := by
  cases t <;> cases g <;> rfl

theorem completes_complete (hl : l.grain?.isSome = true) (now : Fields) :
    l.Completes now (l.complete now) := by
  obtain ⟨date?, time?⟩ := l
  cases date? with
  | some d =>
    have hyear : (⟨some d, time?⟩ : Literal).part? .year = some d.yearNumber := by
      cases d <;> rfl
    refine ⟨fun g n hn => ?_, fun g hnone => ?_, fun g hg _ => ?_⟩
    · rw [get_complete_dated, hn]
      rfl
    · rw [hnone .year (Nat.zero_le _)] at hyear
      cases hyear
    · rw [get_complete_dated, hg]
      rfl
  | none =>
    cases time? with
    | none => cases hl
    | some t =>
      have hdate : ∀ g : Grain, g.index < Grain.hour.index →
          (⟨none, some t⟩ : Literal).part? g = none := by
        intro g hg
        cases g <;> first | exact absurd hg (by decide) | (cases t <;> rfl)
      have hhour : ((⟨none, some t⟩ : Literal).part? .hour).isSome = true := by
        cases t <;> rfl
      refine ⟨fun g n hn => ?_, fun g hnone => ?_, ?_⟩
      · rw [get_complete_timed, if_neg, hn]
        · rfl
        · intro hg
          rw [hdate g hg] at hn
          cases hn
      · rw [get_complete_timed, if_pos]
        apply Nat.lt_of_not_le
        intro hg
        rw [hnone _ hg] at hhour
        cases hhour
      · rintro g hg ⟨k, hk, hgiven⟩
        rw [get_complete_timed, if_neg, hg]
        · rfl
        · intro hlt
          rw [hdate k (by omega)] at hgiven
          cases hgiven

/-- Every field is of one of the three kinds, so there are no two ways to complete a literal. -/
theorem Completes.eq (hv : l.Completes now v) (hw : l.Completes now w) : v = w := by
  have hget : ∀ g, v.get g = w.get g := by
    intro g
    cases hg : l.part? g with
    | some n => rw [hv.given g n hg, hw.given g n hg]
    | none =>
      by_cases hk : ∃ k : Grain, k.index < g.index ∧ (l.part? k).isSome = true
      · rw [hv.first g hg hk, hw.first g hg hk]
      · have hnone : ∀ k : Grain, k.index ≤ g.index → l.part? k = none := by
          intro k hle
          rcases Nat.lt_or_eq_of_le hle with hlt | heq
          · by_contra hsome
            exact hk ⟨k, hlt, Option.isSome_iff_ne_none.mpr hsome⟩
          · obtain rfl : k = g := by cases k <;> cases g <;> first | rfl | cases heq
            exact hg
        rw [hv.taken g hnone, hw.taken g hnone]
  exact (Fields.floor_eq_iff .milli).mpr fun g _ => hget g

theorem completes_iff (hl : l.grain?.isSome = true) : l.Completes now v ↔ v = l.complete now := by
  constructor
  · exact fun hv => hv.eq (completes_complete hl now)
  · rintro rfl
    exact completes_complete hl now

/-- A literal completes to the first instant of its finest field. -/
theorem floor_complete (hg : l.grain? = some g) (now : Fields) :
    (l.complete now).floor g = l.complete now := by
  obtain ⟨date?, time?⟩ := l
  cases time? with
  | some t => cases t <;> cases hg <;> rfl
  | none =>
    cases date? with
    | some d => cases d <;> cases hg <;> rfl
    | none => cases hg

/-- A year of four digits, or that of the present, is none after the calendar. -/
theorem year_complete_le {cs : List Char} (hread : read? cs = some l) (hnow : now.year ≤ 9999) :
    (l.complete now).year ≤ 9999 := by
  obtain ⟨date?, time?⟩ := l
  cases date? with
  | some d =>
    have hd := yearNumber_lt hread rfl
    have hyear : ((⟨some d, time?⟩ : Literal).complete now).year = d.yearNumber := by
      cases time? with
      | none => cases d <;> rfl
      | some t => cases d <;> cases t <;> rfl
    omega
  | none =>
    cases time? with
    | none => exact hnow
    | some t => cases t <;> exact hnow

/-- So the check leaves out no date and no time of day. -/
theorem fault?_complete_eq_none_iff (hyear : (l.complete now).year ≤ 9999) :
    (l.complete now).fault? = none ↔ (l.complete now).Valid ∧ 1 ≤ (l.complete now).year := by
  constructor
  · intro h
    have hv := canonical_complete h
    exact ⟨hv.valid, hv.year.1⟩
  · rintro ⟨hv, hfirst⟩
    exact (Fields.canonical_iff.mp ⟨hv, hfirst, hyear⟩).1

/-- Fields that fail the check are named as the date at fault. -/
theorem resolve_of_fault {c : WallClock} {origin : Int} {text : List Char} {fault : FieldFault}
    (hnow : c.fieldsAt origin = .ok now) (hg : l.grain? = some g)
    (h : (l.complete now).fault? = some fault) :
    l.resolve c origin text = .error (.rejected (.invalidDate (String.ofList text) fault)) := by
  simp [resolve, hnow, hg, h]

end Literal

/-! ## The range of a unit -/

/-- The clock of a zone known by name finds both ends of every unit of the calendar, the stop of the
    last ones included. -/
theorem WallClock.exists_interval_unit_zoned {v : Fields} (h : v.Canonical) (z : Zone) (g : Grain) :
    ∃ i, (zoned z).interval (v.floor g) g 1 = .ok i := by
  obtain ⟨start, hstart⟩ :=
    exists_instantOf_zoned (z := z) (covers_of_canonical (Fields.canonical_floor h g))
  obtain ⟨stop, hstop⟩ := exists_instantOf_zoned (z := z) (covers_unit_stop h g)
  exact ⟨⟨start, stop⟩, interval_eq_ok_iff.mpr ⟨hstart, hstop⟩⟩

/-! ## Literals on the clock of a zone -/

namespace Term

open WallClock

/-- On the clock of a zone known by name, that of UTC too, a text that is read as a literal has a
    range just when the literal completes to a date and a time of day of the year 1 or later. It is
    out of range otherwise, and fields that pass the check always have a range. -/
theorem resolve_literal_zoned (z : Zone) {origin : Int} {now : Fields} {text : List Char}
    {l : Literal} (hnow : (zoned z).fieldsAt origin = .ok now)
    (hread : Literal.read? (canonical text) = some l) (hl : l.grain?.isSome = true) :
    ∃ v, (∀ u, l.Completes now u ↔ u = v) ∧
      ((∃ i, resolve (zoned z) origin text = .ok (.interval i)) ↔ v.Valid ∧ 1 ≤ v.year) ∧
      (¬ (v.Valid ∧ 1 ≤ v.year) → ∃ cause,
        resolve (zoned z) origin text = .error (.rejected cause) ∧ cause.kind = .outOfRange) ∧
      (v.fault? = none → ∃ g i, l.grain? = some g ∧ (zoned z).interval v g 1 = .ok i) := by
  obtain ⟨g, hg⟩ := Option.isSome_iff_exists.mp hl
  have hform := form_eq_literal_iff.mpr ⟨hread, hl⟩
  have hvalid := Literal.fault?_complete_eq_none_iff
    (Literal.year_complete_le hread (canonical_of_fieldsAt hnow).year.2)
  have hrange : (l.complete now).fault? = none →
      ∃ i, (zoned z).interval (l.complete now) g 1 = .ok i := by
    intro h
    obtain ⟨i, hi⟩ := exists_interval_unit_zoned (Literal.canonical_complete h) z g
    rw [Literal.floor_complete hg] at hi
    exact ⟨i, hi⟩
  have hpass : ∀ i, (l.complete now).fault? = none →
      (zoned z).interval (l.complete now) g 1 = .ok i →
      resolve (zoned z) origin text = .ok (.interval i) := fun i h hi =>
    resolve_eq_interval_iff.mpr ⟨_, _, _, .literal hform hg hnow h, hi⟩
  have hfail : ∀ fault, (l.complete now).fault? = some fault →
      resolve (zoned z) origin text =
        .error (.rejected (.invalidDate (String.ofList (canonical text)) fault)) := by
    intro fault h
    rw [resolve_eq, hform]
    exact map_eq_error_iff.mpr (Literal.resolve_of_fault hnow hg h)
  refine ⟨l.complete now, fun u => Literal.completes_iff hl, ?_, fun hinvalid => ?_, fun h => ?_⟩
  · rw [← hvalid]
    constructor
    · rintro ⟨i, hi⟩
      cases h : (l.complete now).fault? with
      | none => rfl
      | some fault =>
        rw [hfail fault h] at hi
        cases hi
    · intro h
      obtain ⟨i, hi⟩ := hrange h
      exact ⟨i, hpass i h hi⟩
  · rw [← hvalid] at hinvalid
    obtain ⟨fault, h⟩ := Option.ne_none_iff_exists'.mp hinvalid
    exact ⟨_, hfail fault h, rfl⟩
  · obtain ⟨i, hi⟩ := hrange h
    exact ⟨g, i, hg, hi⟩

/-- The last minute of the last year on eastern clocks, the last second of the calendar from a clock
    in it, and a leap day that the last year does not have. -/
theorem resolve_literal_zoned_end_of_calendar :
    (∃ i, resolve (zoned Zone.eastern) 0 "9999-12-31 23:59".toList = .ok (.interval i)) ∧
    (∃ i, resolve (zoned Zone.utc) 253402300799999 "23:59:59".toList = .ok (.interval i)) ∧
    ∃ cause, resolve (zoned Zone.eastern) 0 "9999-02-29".toList = .error (.rejected cause) ∧
      cause.kind = .outOfRange := by
  have hnow : (zoned Zone.eastern).fieldsAt 0 = .ok ⟨1969, 12, 31, 19, 0, 0, 0⟩ := by
    decide +kernel
  have hlate : (zoned Zone.utc).fieldsAt 253402300799999 = .ok ⟨9999, 12, 31, 23, 59, 59, 999⟩ := by
    decide +kernel
  have hminute : Literal.read? (canonical "9999-12-31 23:59".toList) =
      some ⟨some (.day 9999 12 31), some (.minute 23 59)⟩ := by decide +kernel
  have hsecond : Literal.read? (canonical "23:59:59".toList) =
      some ⟨none, some (.second 23 59 59)⟩ := by decide +kernel
  have hday : Literal.read? (canonical "9999-02-29".toList) =
      some ⟨some (.day 9999 2 29), none⟩ := by decide +kernel
  refine ⟨?_, ?_, ?_⟩
  · obtain ⟨v, hv, hrange, -⟩ := resolve_literal_zoned Zone.eastern hnow hminute rfl
    obtain rfl := (hv _).mp (Literal.completes_complete rfl _)
    exact hrange.mpr ⟨⟨⟨by decide, by decide⟩, by decide, by decide, by decide, by decide⟩,
      by decide⟩
  · obtain ⟨v, hv, hrange, -⟩ := resolve_literal_zoned Zone.utc hlate hsecond rfl
    obtain rfl := (hv _).mp (Literal.completes_complete rfl _)
    exact hrange.mpr ⟨⟨⟨by decide, by decide⟩, by decide, by decide, by decide, by decide⟩,
      by decide⟩
  · obtain ⟨v, hv, -, hfail, -⟩ := resolve_literal_zoned Zone.eastern hnow hday rfl
    obtain rfl := (hv _).mp (Literal.completes_complete rfl _)
    refine hfail ?_
    rintro ⟨⟨⟨-, hlength⟩, -⟩, -⟩
    exact absurd hlength (by decide)

end Term

end Timespan
