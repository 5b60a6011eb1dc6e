/-
  Literals written and read back. A literal is written as its reader takes it, with all numbers
  zero-padded, and `Literal.form_write` reads it off that text. A run of more than six digits never
  starts a literal, so with a unit behind it is a duration (`Term.form_digits_unit`).
-/
import Timespan.Proofs.Term.Form
import Timespan.Proofs.Text.Normal

namespace Timespan

open Timespan.Text

/-! ## Writers -/

/-- YYYY, YYYY-MM or YYYY-MM-DD. -/
def DatePart.write : DatePart → List Char
  | .year y => padded 4 y
  | .month y m => padded 4 y ++ '-' :: padded 2 m
  | .day y m d => padded 4 y ++ '-' :: padded 2 m ++ '-' :: padded 2 d

/-- HH, HH:MM or HH:MM:SS. -/
def TimePart.write : TimePart → List Char
  | .hour h => padded 2 h
  | .minute h m => padded 2 h ++ ':' :: padded 2 m
  | .second h m s => padded 2 h ++ ':' :: padded 2 m ++ ':' :: padded 2 s

/-- The date and the time, with a space between them. -/
def Literal.write (l : Literal) : List Char :=
  match l.date?, l.time? with
  | some d, some t => d.write ++ ' ' :: t.write
  | some d, none => d.write
  | none, some t => t.write
  | none, none => []

/-- No number has more digits than there is room for. -/
def DatePart.Fits : DatePart → Prop
  | .year y => y < 10000
  | .month y m => y < 10000 ∧ m < 100
  | .day y m d => y < 10000 ∧ m < 100 ∧ d < 100

def TimePart.Fits : TimePart → Prop
  | .hour h => h < 100
  | .minute h m => h < 100 ∧ m < 100
  | .second h m s => h < 100 ∧ m < 100 ∧ s < 100

structure Literal.Fits (l : Literal) : Prop where
  date : ∀ d, l.date? = some d → d.Fits
  time : ∀ t, l.time? = some t → t.Fits

/-! ## Readers -/

namespace Literal

theorem fourDigits?_padded {n : Nat} (h : n < 10000) (rest : List Char) :
    fourDigits? (padded 4 n ++ rest) = some (n, rest) :=
  nextNumber?_padded h rest

theorem twoDigits?_padded {n : Nat} (h : n < 100) (rest : List Char) :
    twoDigits? (padded 2 n ++ rest) = some (n, rest) :=
  nextNumber?_padded h rest

theorem hourDigits?_padded {n : Nat} (h : n < 100) (rest : List Char) :
    hourDigits? (padded 2 n ++ rest) = some (n, rest) := by
  rw [hourDigits?, twoDigits?_padded h]
  rfl

@[simp] theorem after?_cons (separator : Char) (cs : List Char) :
    after? separator (separator :: cs) = some cs := if_pos rfl

theorem after?_digits {separator : Char} (hs : separator.isDigit = false) {ds : List Char}
    (hd : ∀ c ∈ ds, c.isDigit = true) (hne : ds ≠ []) (rest : List Char) :
    after? separator (ds ++ rest) = none := by
  cases ds with
  | nil => exact absurd rfl hne
  | cons c ds =>
    rw [List.cons_append, after?, if_neg]
    rintro rfl
    rw [hd c List.mem_cons_self] at hs
    cases hs

end Literal

/-- The year of a date. -/
def DatePart.yearNumber : DatePart → Nat
  | .year y | .month y _ | .day y _ _ => y

open Literal in
/-- A text has a date just when it starts with the four digits of its year. -/
theorem DatePart.read?_cases {cs rest : List Char} {date? : Option DatePart}
    (h : read? cs = some (date?, rest)) :
    (fourDigits? cs = none ∧ date? = none ∧ rest = cs) ∨
      ∃ d rest', fourDigits? cs = some (d.yearNumber, rest') ∧ date? = some d := by
  simp only [read?] at h
  split at h
  · rename_i hfour
    cases h
    exact Or.inl ⟨hfour, rfl, rfl⟩
  · rename_i y _ hfour
    refine Or.inr ?_
    split at h
    · cases h
      exact ⟨.year y, _, hfour, rfl⟩
    · obtain ⟨⟨m, rest₂⟩, -, h⟩ := Option.bind_eq_some_iff.mp h
      dsimp only at h
      split at h
      · cases h
        exact ⟨.month y m, _, hfour, rfl⟩
      · obtain ⟨⟨d, rest₃⟩, -, h⟩ := Option.bind_eq_some_iff.mp h
        cases h
        exact ⟨.day y m d, _, hfour, rfl⟩

open Literal in
/-- A date is read back off a text that does not go on with a hyphen. -/
theorem DatePart.read?_write {d : DatePart} (h : d.Fits) {rest : List Char}
    (hrest : after? '-' rest = none) : read? (d.write ++ rest) = some (some d, rest) := by
  cases d with
  | year y =>
    rw [write, read?, fourDigits?_padded h]
    simp only [hrest]
  | month y m =>
    obtain ⟨hy, hm⟩ := h
    rw [write, List.append_assoc, List.cons_append, read?, fourDigits?_padded hy]
    simp [twoDigits?_padded hm, hrest]
  | day y m d =>
    obtain ⟨hy, hm, hd⟩ := h
    rw [write, List.append_assoc, List.append_assoc, List.cons_append, List.cons_append, read?,
      fourDigits?_padded hy]
    simp [twoDigits?_padded hm, twoDigits?_padded hd]

namespace TimePart

open Literal

theorem write_eq (t : TimePart) : ∃ h rest, t.write = padded 2 h ++ rest ∧
    (rest = [] ∨ ∃ cs, rest = ':' :: cs) := by
  cases t with
  | hour h => exact ⟨h, [], (List.append_nil _).symm, Or.inl rfl⟩
  | minute h m => exact ⟨h, _, rfl, Or.inr ⟨_, rfl⟩⟩
  | second h m s => exact ⟨h, _, List.append_assoc _ _ _, Or.inr ⟨_, rfl⟩⟩

theorem read?_of_ne_nil {cs : List Char} (h : cs ≠ []) :
    read? cs = (hourDigits? cs).bind fun (h, rest) =>
      match after? ':' rest with
      | none => if rest.isEmpty then some (some (.hour h)) else none
      | some rest => (twoDigits? rest).bind fun (m, rest) =>
        match after? ':' rest with
        | none => if rest.isEmpty then some (some (.minute h m)) else none
        | some rest => (twoDigits? rest).bind fun (s, rest) =>
          if rest.isEmpty then some (some (.second h m s)) else none := by
  cases cs with
  | nil => exact absurd rfl h
  | cons c cs => rfl

theorem read?_write {t : TimePart} (h : t.Fits) : read? t.write = some (some t) := by
  have hne : ∀ n rest, padded 2 n ++ rest ≠ [] := by
    intro n rest
    simp [padded]
  have htwo := fun {n : Nat} (hn : n < 100) => twoDigits?_padded hn []
  simp only [List.append_nil] at htwo
  cases t with
  | hour h =>
    have hh := hourDigits?_padded h []
    rw [List.append_nil] at hh
    rw [write, read?_of_ne_nil (by simp [padded]), hh]
    rfl
  | minute h m =>
    obtain ⟨hh, hm⟩ := h
    rw [write, read?_of_ne_nil (hne _ _), hourDigits?_padded hh]
    simp [htwo hm, after?]
  | second h m s =>
    obtain ⟨hh, hm, hs⟩ := h
    rw [write, List.append_assoc, List.cons_append, read?_of_ne_nil (hne _ _),
      hourDigits?_padded hh]
    simp [twoDigits?_padded hm, htwo hs]

end TimePart

/-- Two digits and a colon are not the four digits of a year. -/
theorem DatePart.read?_time (t : TimePart) : read? t.write = some (none, t.write) := by
  have hfour : Literal.fourDigits? t.write = none := by
    obtain ⟨h, rest, ht, hrest⟩ := t.write_eq
    rw [ht, Literal.fourDigits?, nextNumber?]
    rcases hrest with rfl | ⟨cs, rfl⟩ <;> simp [padded, nextDigits?, digit?, digitZeros]
  rw [read?, hfour]

namespace Literal

/-- A literal is read back as it was written. -/
theorem read?_write {l : Literal} (h : l.Fits) : read? l.write = some l := by
  obtain ⟨date?, time?⟩ := l
  obtain ⟨hd, ht⟩ := h
  cases date? with
  | none =>
    cases time? with
    | none => rfl
    | some t =>
      have hblank : after? ' ' t.write = none := by
        obtain ⟨n, rest, hw, -⟩ := t.write_eq
        rw [hw]
        exact after?_digits rfl (fun c => isDigit_of_mem_padded) (by simp [padded]) rest
      rw [write, read?, DatePart.read?_time]
      simp [hblank, TimePart.read?_write (ht t rfl)]
  | some d =>
    cases time? with
    | none =>
      have hdate := DatePart.read?_write (hd d rfl) (show after? '-' [] = none from rfl)
      rw [List.append_nil] at hdate
      rw [write, read?, hdate]
      rfl
    | some t =>
      rw [write, read?, DatePart.read?_write (hd d rfl) rfl]
      simp [TimePart.read?_write (ht t rfl)]

/-- More than six digits in a row are no literal: four are its year, two its hour. -/
theorem read?_digits {ds : List Char} (hd : ∀ c ∈ ds, c.isDigit = true) (hl : 6 < ds.length)
    (rest : List Char) : read? (ds ++ rest) = none := by
  have htail : ∀ n, n ≤ 6 → (∀ c ∈ ds.drop n, c.isDigit = true) ∧ ds.drop n ≠ [] := by
    intro n hn
    refine ⟨fun c hc => hd c (List.mem_of_mem_drop hc), ?_⟩
    rw [ne_eq, List.drop_eq_nil_iff]
    omega
  obtain ⟨hd4, hne4⟩ := htail 4 (by decide)
  obtain ⟨hd6, hne6⟩ := htail 6 (by decide)
  have hyear : DatePart.read? (ds ++ rest) =
      some (some (.year (digitsValue (ds.take 4))), ds.drop 4 ++ rest) := by
    rw [DatePart.read?, fourDigits?, nextNumber?_take hd (by omega)]
    simp only [after?_digits (show '-'.isDigit = false from rfl) hd4 hne4]
  have hhour : hourDigits? (ds.drop 4 ++ rest) =
      some (digitsValue ((ds.drop 4).take 2), ds.drop 6 ++ rest) := by
    rw [hourDigits?, twoDigits?, nextNumber?_take hd4, List.drop_drop]
    · rfl
    · rw [List.length_drop]
      omega
  have htime : TimePart.read? (ds.drop 4 ++ rest) = none := by
    rw [TimePart.read?_of_ne_nil (by simp [hne4]), hhour]
    simp [after?_digits (show ':'.isDigit = false from rfl) hd6 hne6, hne6]
  rw [read?, hyear]
  simp [after?_digits (show ' '.isDigit = false from rfl) hd4 hne4, htime]

end Literal

/-! ## What a literal that is read starts with -/

namespace Literal

theorem read?_eq_some_iff {cs : List Char} {l : Literal} :
    read? cs = some l ↔ ∃ rest, DatePart.read? cs = some (l.date?, rest) ∧
      TimePart.read? ((after? ' ' rest).getD rest) = some l.time? := by
  obtain ⟨date?, time?⟩ := l
  simp only [read?, Option.bind_eq_bind, Option.bind_eq_some_iff, Option.pure_def,
    Option.some.injEq, mk.injEq, Prod.exists]
  constructor
  · rintro ⟨_, rest, hdate, _, htime, rfl, rfl⟩
    exact ⟨rest, hdate, htime⟩
  · rintro ⟨rest, hdate, htime⟩
    exact ⟨_, rest, hdate, _, htime, rfl, rfl⟩

/-- A literal has a date just when it starts with four digits. -/
theorem date?_isSome_iff {cs : List Char} {l : Literal} (h : read? cs = some l) :
    l.date?.isSome = true ↔ BeginsWithDigits 4 cs := by
  obtain ⟨rest, hdate, -⟩ := read?_eq_some_iff.mp h
  rw [← nextNumber?_isSome_iff]
  show _ ↔ (fourDigits? cs).isSome = true
  rcases DatePart.read?_cases hdate with ⟨hfour, hd, -⟩ | ⟨d, rest', hfour, hd⟩ <;>
    simp [hfour, hd]

theorem yearNumber_lt {cs : List Char} {l : Literal} {d : DatePart} (h : read? cs = some l)
    (hd : l.date? = some d) : d.yearNumber < 10000 := by
  obtain ⟨rest, hdate, -⟩ := read?_eq_some_iff.mp h
  rcases DatePart.read?_cases hdate with ⟨-, hnone, -⟩ | ⟨d', rest', hfour, hsome⟩
  · rw [hd] at hnone
    cases hnone
  · rw [hd] at hsome
    cases hsome
    exact nextNumber?_lt hfour

theorem exists_digit_of_beginsWithDigits {n : Nat} {cs : List Char}
    (h : BeginsWithDigits (n + 1) cs) : ∃ c ∈ cs, isDigit c = true := by
  obtain ⟨hlen, hdigits⟩ := h
  cases cs with
  | nil => cases hlen
  | cons c cs => exact ⟨c, List.mem_cons_self, hdigits c List.mem_cons_self⟩

theorem exists_digit_of_hourDigits? {cs : List Char} (h : (hourDigits? cs).isSome = true) :
    ∃ c ∈ cs, isDigit c = true := by
  rw [hourDigits?, Option.isSome_or, Bool.or_eq_true] at h
  rcases h with h | h <;> exact exists_digit_of_beginsWithDigits (nextNumber?_isSome_iff.mp h)

/-- A literal with a part has a digit. -/
theorem exists_digit_of_read? {cs : List Char} {l : Literal} (h : read? cs = some l)
    (hl : l.grain?.isSome = true) : ∃ c ∈ cs, isDigit c = true := by
  by_cases hdate : l.date?.isSome = true
  · exact exists_digit_of_beginsWithDigits ((date?_isSome_iff h).mp hdate)
  · obtain ⟨rest, hrest, htime⟩ := read?_eq_some_iff.mp h
    obtain rfl : rest = cs := by
      rcases DatePart.read?_cases hrest with ⟨-, -, hrest⟩ | ⟨d, _, -, hd⟩
      · exact hrest
      · exact absurd (by rw [hd]; rfl) hdate
    have htimed : l.time?.isSome = true := by
      obtain ⟨_ | d, _ | t⟩ := l
      · cases hl
      · rfl
      · exact absurd rfl hdate
      · rfl
    obtain ⟨t, ht⟩ := Option.isSome_iff_exists.mp htimed
    rw [ht] at htime
    have hne : (after? ' ' rest).getD rest ≠ [] := by
      intro hnil
      rw [hnil] at htime
      cases htime
    rw [TimePart.read?_of_ne_nil hne] at htime
    obtain ⟨hour, hhour, -⟩ := Option.bind_eq_some_iff.mp htime
    obtain ⟨c, hc, hd⟩ := exists_digit_of_hourDigits? (by rw [hhour]; rfl)
    refine ⟨c, ?_, hd⟩
    cases rest with
    | nil => exact absurd rfl hne
    | cons e es =>
      rw [after?] at hc
      split at hc
      · exact List.mem_cons_of_mem _ hc
      · exact hc

end Literal

/-! ## Normal forms -/

theorem DatePart.solid_of_mem_write {d : DatePart} {c : Char} (h : c ∈ d.write) : Solid c := by
  have hp : ∀ {width n}, c ∈ padded width n → Solid c :=
    fun hc => solid_of_isDigit (isDigit_of_mem_padded hc)
  have hs : Solid '-' := by decide
  cases d <;> simp only [write, List.mem_append, List.mem_cons] at h <;> grind

theorem TimePart.solid_of_mem_write {t : TimePart} {c : Char} (h : c ∈ t.write) : Solid c := by
  have hp : ∀ {width n}, c ∈ padded width n → Solid c :=
    fun hc => solid_of_isDigit (isDigit_of_mem_padded hc)
  have hs : Solid ':' := by decide
  cases t <;> simp only [write, List.mem_append, List.mem_cons] at h <;> grind

theorem DatePart.exists_digit_mem_write (d : DatePart) : ∃ c ∈ d.write, c.isDigit = true := by
  cases d with
  | year y => exact exists_digit_mem_padded 3 y
  | month y m =>
    obtain ⟨c, hc, hd⟩ := exists_digit_mem_padded 3 y
    exact ⟨c, List.mem_append_left _ hc, hd⟩
  | day y m d =>
    obtain ⟨c, hc, hd⟩ := exists_digit_mem_padded 3 y
    exact ⟨c, List.mem_append_left _ (List.mem_append_left _ hc), hd⟩

theorem TimePart.exists_digit_mem_write (t : TimePart) : ∃ c ∈ t.write, c.isDigit = true := by
  obtain ⟨h, rest, ht, -⟩ := t.write_eq
  obtain ⟨c, hc, hd⟩ := exists_digit_mem_padded 1 h
  exact ⟨c, ht ▸ List.mem_append_left _ hc, hd⟩

namespace Literal

/-- A written literal is in normal form. -/
@[simp] theorem canonical_write (l : Literal) : Term.canonical l.write = l.write := by
  obtain ⟨date?, time?⟩ := l
  have hd := fun (d : DatePart) (c : Char) => DatePart.solid_of_mem_write (d := d) (c := c)
  have ht := fun (t : TimePart) (c : Char) => TimePart.solid_of_mem_write (t := t) (c := c)
  rw [Term.canonical]
  cases date? with
  | none =>
    cases time? with
    | none => rfl
    | some t => rw [write, tidy_of_solid (ht t), map_lower_of_solid (ht t)]
  | some d =>
    cases time? with
    | none => rw [write, tidy_of_solid (hd d), map_lower_of_solid (hd d)]
    | some t =>
      obtain ⟨c, hc, -⟩ := d.exists_digit_mem_write
      obtain ⟨e, he, -⟩ := t.exists_digit_mem_write
      rw [write, tidy_of_solid_pair (hd d) (ht t) (List.ne_nil_of_mem hc) (List.ne_nil_of_mem he),
        List.map_append, List.map_cons, map_lower_of_solid (hd d), map_lower_of_solid (ht t)]
      rfl

end Literal

/-! ## Durations -/

/-- A text made up of digits and a word of letters, with at most one space between. -/
structure DurationForm.Spells (d : DurationForm) (cs : List Char) : Prop where
  counted : d.digits ≠ []
  digits : ∀ c ∈ d.digits, isDigit c = true
  named : d.unit ≠ []
  letters : ∀ c ∈ d.unit, isLowerLetter c = true
  text : cs = d.digits ++ d.unit ∨ cs = d.digits ++ ' ' :: d.unit

theorem DurationForm.read?_eq_some_iff {cs : List Char} {d : DurationForm} :
    read? cs = some d ↔ d.Spells cs := by
  constructor
  · intro h
    obtain ⟨htext, hdigits, hletters⟩ := eq_of_read? h
    unfold read? at h
    obtain ⟨hform, hd⟩ := Option.ite_none_left_eq_some.mp h
    simp only [Bool.or_eq_true, List.isEmpty_iff, not_or] at hform
    cases hd
    exact ⟨hform.1.1, hdigits, hform.1.2, hletters, htext⟩
  · rintro ⟨hcounted, hdigits, hnamed, hletters, htext⟩
    obtain ⟨ds, unit⟩ := d
    obtain ⟨u, us, rfl⟩ := List.exists_cons_of_ne_nil hnamed
    have hu : isLowerLetter u = true := hletters u List.mem_cons_self
    have hblank : u ≠ ' ' := by
      rintro rfl
      exact absurd hu (by decide)
    have hall : (u :: us).all isLowerLetter = true := List.all_eq_true.mpr hletters
    have hkept : ¬ (ds.isEmpty || (u :: us).isEmpty || !(u :: us).all isLowerLetter) = true := by
      rw [hall, Bool.or_eq_true, Bool.or_eq_true, List.isEmpty_iff]
      simp [hcounted]
    -- the digits end at the space or the first letter of the unit
    have hstop : ∀ (c : Char) (r : List Char), isDigit c = false →
        (ds ++ c :: r).takeWhile isDigit = ds ∧ (ds ++ c :: r).dropWhile isDigit = c :: r := by
      intro c r hc
      rw [List.takeWhile_append_of_pos hdigits, List.dropWhile_append_of_pos hdigits,
        List.takeWhile_cons_of_neg (by simp [hc]), List.dropWhile_cons_of_neg (by simp [hc]),
        List.append_nil]
      exact ⟨rfl, rfl⟩
    rcases htext with rfl | rfl
    · obtain ⟨htake, hdrop⟩ := hstop u us (not_isDigit_of_isLowerLetter hu)
      rw [read?, htake, hdrop]
      split
      · rename_i hcons
        exact absurd (List.cons.inj hcons).1 hblank
      · exact if_neg hkept
    · obtain ⟨htake, hdrop⟩ := hstop ' ' (u :: us) (by decide)
      rw [read?, htake, hdrop]
      exact if_neg hkept

/-! ## Forms -/

namespace Term

/-- A text with a digit in it is no word. -/
theorem isWord_eq_false {text : List Char} {c : Char} (hc : c ∈ text) (hd : isDigit c = true) :
    isWord (text.filter (· != ' ')) = false := by
  have hletter : ¬ isLowerLetter c = true := by
    intro h
    rw [not_isDigit_of_isLowerLetter h] at hd
    cases hd
  have hblank : c ≠ ' ' := by
    rintro rfl
    exact absurd hd (by decide)
  have hmem : c ∈ text.filter (· != ' ') := List.mem_filter.mpr ⟨hc, bne_iff_ne.mpr hblank⟩
  rw [isWord, Bool.and_eq_false_iff]
  right
  rw [List.all_eq_false]
  exact ⟨c, hmem, hletter⟩

/-- A text has the form of a literal when it is read as one with a part: it is no word then. -/
theorem form_eq_literal_iff {text : List Char} {l : Literal} :
    form text = .literal l ↔
      Literal.read? (canonical text) = some l ∧ l.grain?.isSome = true := by
  constructor
  · intro h
    simp only [form] at h
    split at h
    · cases h
    · split at h
      · rename_i hread
        cases h
        exact Option.filter_eq_some_iff.mp hread
      · split at h <;> cases h
  · rintro ⟨hread, hl⟩
    obtain ⟨c, hc, hd⟩ := Literal.exists_digit_of_read? hread hl
    simp only [form, isWord_eq_false hc hd, hread, Option.filter_some, hl, if_true]
    rfl

/-- A written literal is read as that literal. -/
theorem form_write {l : Literal} (h : l.Fits) (hg : l.grain?.isSome = true) :
    form l.write = .literal l :=
  form_eq_literal_iff.mpr ⟨by rw [Literal.canonical_write, Literal.read?_write h], hg⟩

/-- More than six digits with a unit behind them are read as a duration. -/
theorem form_digits_unit {ds unit : List Char} (hd : ∀ c ∈ ds, c.isDigit = true)
    (hl : 6 < ds.length) (hu : ∀ c ∈ unit, isLowerLetter c = true) (hne : unit ≠ []) :
    form (ds ++ unit) = .duration ⟨ds, unit⟩ := by
  have hsolid : ∀ c ∈ ds ++ unit, Solid c := by
    intro c hc
    rcases List.mem_append.mp hc with hc | hc
    · exact solid_of_isDigit (hd c hc)
    · exact solid_of_isLowerLetter (hu c hc)
  have hcanonical : canonical (ds ++ unit) = ds ++ unit := by
    rw [canonical, tidy_of_solid hsolid, map_lower_of_solid hsolid]
  obtain ⟨c, cs, rfl⟩ := List.exists_cons_of_ne_nil (l := ds) (by rintro rfl; cases hl)
  have hdigits : ∀ x ∈ c :: cs, isDigit x = true := fun x hx => isDigit_of_ascii (hd x hx)
  have hread : DurationForm.read? (c :: cs ++ unit) = some ⟨c :: cs, unit⟩ :=
    DurationForm.read?_eq_some_iff.mpr ⟨List.cons_ne_nil c cs, hdigits, hne, hu, Or.inl rfl⟩
  rw [form, hcanonical]
  simp only [isWord_eq_false (List.mem_append_left _ List.mem_cons_self)
    (hdigits c List.mem_cons_self), Literal.read?_digits hd hl, Option.filter_none, hread]
  rfl

end Term

end Timespan
