/-
  The grammar of terms. A term is written in words, as a date or a time, or as a duration, and a
  text can be read in one of these ways at most: whether it has a digit in it and whether it has a
  letter tells them apart (`Reading.eq_of_fits`). So the outcome of a term does not depend on the
  order in which the forms are tried, nor on how a pattern is searched for (`resolve_unambiguous`).
-/
import Timespan.Proofs.Term.Split

namespace Timespan

open Timespan.Text

/-! ## Names and aliases -/

theorem Keyword.ofName?_eq_some_iff {word : List Char} {k : Keyword} :
    ofName? word = some k ↔ k.name.toList = word := by
  constructor
  · intro h
    unfold ofName? at h
    have hfound := List.find?_some h
    exact beq_iff_eq.mp hfound
  · rintro rfl
    exact (Term.form_name k).2

namespace DurationUnit

/-- No alias stands for two units. -/
theorem ofAlias?_alias (u : DurationUnit) : ∀ a ∈ u.aliases, ofAlias? a.toList = some u := by
  cases u <;> decide

theorem ofAlias?_eq_some_iff {word : List Char} {u : DurationUnit} :
    ofAlias? word = some u ↔ ∃ a ∈ u.aliases, a.toList = word := by
  constructor
  · intro h
    unfold ofAlias? at h
    have hfound := List.find?_some h
    obtain ⟨a, ha, hword⟩ := List.any_eq_true.mp hfound
    exact ⟨a, ha, beq_iff_eq.mp hword⟩
  · rintro ⟨a, ha, rfl⟩
    exact ofAlias?_alias u a ha

/-- Lower-case letters name a unit as they stand. -/
theorem named?_of_letters {word : List Char} (h : ∀ c ∈ word, isLowerLetter c = true) :
    named? word = ofAlias? word := by
  have hsolid : ∀ c ∈ word, Solid c := fun c hc => solid_of_isLowerLetter (h c hc)
  have hsqueeze : squeeze word = word := by
    refine List.filter_eq_self.mpr fun c hc => ?_
    rw [(hsolid c hc).1]
    rfl
  rw [named?, hsqueeze, map_lower_of_solid hsolid]

end DurationUnit

namespace DurationForm

variable {d : DurationForm} {cs : List Char}

/-- A count that can be read, of a unit that is known. -/
theorem Spells.millis_eq_ok_iff (h : d.Spells cs) {n : Int} :
    d.millis = .ok n ↔ d.digits.length ≤ maxDigits ∧
      ∃ u : DurationUnit, ∃ a ∈ u.aliases, a.toList = d.unit ∧
        n = digitsValue d.digits * u.millis := by
  unfold millis
  split
  · rename_i hlen
    rw [mapError_eq_ok_iff, Duration.millis, DurationUnit.named?_of_letters h.letters]
    cases hu : DurationUnit.ofAlias? d.unit with
    | none =>
      refine iff_of_false nofun ?_
      rintro ⟨-, u, a, ha, hunit, -⟩
      rw [DurationUnit.ofAlias?_eq_some_iff.mpr ⟨a, ha, hunit⟩] at hu
      cases hu
    | some u =>
      obtain ⟨a, ha, hunit⟩ := DurationUnit.ofAlias?_eq_some_iff.mp hu
      constructor
      · intro hn
        exact ⟨hlen, u, a, ha, hunit, (Except.ok.inj hn).symm⟩
      · rintro ⟨-, u', a', ha', hunit', rfl⟩
        rw [DurationUnit.ofAlias?_eq_some_iff.mpr ⟨a', ha', hunit'⟩] at hu
        rw [Option.some.inj hu]
  · rename_i hlen
    exact iff_of_false nofun fun h => hlen h.1

theorem Spells.millis_of_no_alias (h : d.Spells cs) (hlen : d.digits.length ≤ maxDigits)
    (hunit : ∀ u : DurationUnit, ∀ a ∈ u.aliases, a.toList ≠ d.unit) :
    d.millis = .error (.rejected (.unknownUnit (String.ofList d.unit))) := by
  have hnone : DurationUnit.ofAlias? d.unit = none := by
    rw [Option.eq_none_iff_forall_ne_some]
    intro u hu
    obtain ⟨a, ha, hword⟩ := DurationUnit.ofAlias?_eq_some_iff.mp hu
    exact hunit u a ha hword
  rw [millis, if_pos hlen, Duration.millis, DurationUnit.named?_of_letters h.letters, hnone]
  rfl

end DurationForm

namespace Term

/-! ## Three ways to read a text -/

/-- Letters and spaces, and at least one letter. -/
def IsWords (cs : List Char) : Prop :=
  (∀ c ∈ cs, isLowerLetter c = true ∨ c = ' ') ∧ ∃ c ∈ cs, isLowerLetter c = true

/-- The letters of a text in normal form, without its spaces. -/
def letters (text : List Char) : List Char := (canonical text).filter (· != ' ')

inductive Shape where
  | words | literal | duration
deriving DecidableEq, Repr

/-- A way to read a text: as words, cut into the numbers of a date or a time, or as digits and a
    unit. -/
inductive Reading where
  | words
  | literal (split : Literal.Split)
  | duration (form : DurationForm)

namespace Reading

def shape : Reading → Shape
  | .words => .words
  | .literal _ => .literal
  | .duration _ => .duration

/-- Can a text be read so? A literal needs a part at least. -/
def Fits : Reading → List Char → Prop
  | .words, cs => IsWords cs
  | .literal s, cs => s.text = cs ∧ (s.date?.isSome = true ∨ s.time?.isSome = true)
  | .duration d, cs => d.Spells cs

/-- What a text that is read so comes to. -/
def outcome (c : WallClock) (origin : Int) (text : List Char) : Reading → Except Fault Term
  | .words => Keyword.resolveWord c origin (letters text)
  | .literal s => (s.literal.resolve c origin (canonical text)).map .interval
  | .duration d => d.millis.map .duration

end Reading

/-- Tries one form: what the text comes to in it, if the text has it. -/
def attempt? (c : WallClock) (origin : Int) (text : List Char) :
    Shape → Option (Except Fault Term)
  | .words =>
    if isWord (letters text) then some (Keyword.resolveWord c origin (letters text)) else none
  | .literal => ((Literal.read? (canonical text)).filter (·.grain?.isSome)).map
      fun l => (l.resolve c origin (canonical text)).map .interval
  | .duration => (DurationForm.read? (canonical text)).map fun d => d.millis.map .duration

/-! ## Telling them apart -/

theorem isWord_filter_iff {cs : List Char} : isWord (cs.filter (· != ' ')) = true ↔ IsWords cs := by
  have hspace : isLowerLetter ' ' = false := by decide
  simp only [isWord, IsWords, Bool.and_eq_true, Bool.not_eq_true',
    List.isEmpty_eq_false_iff_exists_mem, List.all_eq_true, List.mem_filter, bne_iff_ne, ne_eq,
    and_imp]
  constructor
  · rintro ⟨⟨c, hc, hne⟩, hall⟩
    refine ⟨fun d hd => ?_, c, hc, hall c hc hne⟩
    by_cases hd' : d = ' '
    · exact Or.inr hd'
    · exact Or.inl (hall d hd hd')
  · rintro ⟨hall, c, hc, hletter⟩
    refine ⟨⟨c, hc, ?_⟩, fun d hd hne => (hall d hd).resolve_right hne⟩
    rintro rfl
    rw [hspace] at hletter
    cases hletter

end Term

namespace Literal.Split

variable {s : Split} {c : Char}

theorem grain?_isSome_iff :
    s.literal.grain?.isSome = true ↔ s.date?.isSome = true ∨ s.time?.isSome = true := by
  unfold literal grain?
  cases s.date? <;> cases s.time? <;> simp

theorem mem_text (h : c ∈ s.text) : isDigit c = true ∨ c = '-' ∨ c = ' ' ∨ c = ':' := by
  have htime : c ∈ s.timeText → isDigit c = true ∨ c = ':' := by
    unfold timeText
    cases s.time? with
    | none => exact nofun
    | some g => exact Groups.mem_text
  have hrest : c ∈ s.rest → isDigit c = true ∨ c = ' ' ∨ c = ':' := by
    unfold rest
    intro hc
    split at hc
    · rcases List.mem_cons.mp hc with hc | hc
      · exact Or.inr (Or.inl hc)
      · exact (htime hc).imp_right Or.inr
    · exact (htime hc).imp_right Or.inr
  cases hd : s.date? with
  | none =>
    rw [text_of_dateless hd] at h
    exact (hrest h).imp_right Or.inr
  | some g =>
    rw [text_of_dated hd, List.mem_append] at h
    rcases h with h | h
    · exact (Groups.mem_text h).imp_right Or.inl
    · exact (hrest h).imp_right Or.inr

theorem not_isLowerLetter_of_mem_text (h : c ∈ s.text) : isLowerLetter c = false := by
  rcases mem_text h with hc | rfl | rfl | rfl
  · rw [← Bool.not_eq_true]
    intro hletter
    rw [not_isDigit_of_isLowerLetter hletter] at hc
    cases hc
  all_goals decide

end Literal.Split

namespace Term.Reading

variable {r r' : Reading} {cs : List Char}

/-- Words are the texts without a digit. -/
theorem Fits.exists_digit_iff (h : r.Fits cs) :
    (∃ c ∈ cs, isDigit c = true) ↔ r.shape ≠ .words := by
  cases r with
  | words =>
    refine iff_of_false ?_ fun hne => hne rfl
    rintro ⟨c, hc, hdigit⟩
    rcases h.1 c hc with hletter | rfl
    · rw [not_isDigit_of_isLowerLetter hletter] at hdigit
      cases hdigit
    · exact absurd hdigit (by decide)
  | literal s =>
    refine iff_of_true ?_ nofun
    obtain ⟨rfl, hparts⟩ := h
    exact Literal.exists_digit_of_read? s.read?_text (Literal.Split.grain?_isSome_iff.mpr hparts)
  | duration d =>
    refine iff_of_true ?_ nofun
    obtain ⟨c, ds, hds⟩ := List.exists_cons_of_ne_nil h.counted
    have hmem : c ∈ d.digits := by
      rw [hds]
      exact List.mem_cons_self
    refine ⟨c, ?_, h.digits c hmem⟩
    rcases h.text with htext | htext <;> exact htext ▸ List.mem_append_left _ hmem

/-- Dates and times are the texts without a letter. -/
theorem Fits.exists_letter_iff (h : r.Fits cs) :
    (∃ c ∈ cs, isLowerLetter c = true) ↔ r.shape ≠ .literal := by
  cases r with
  | words => exact iff_of_true h.2 nofun
  | literal s =>
    refine iff_of_false ?_ fun hne => hne rfl
    rintro ⟨c, hc, hletter⟩
    rw [← h.1] at hc
    rw [Literal.Split.not_isLowerLetter_of_mem_text hc] at hletter
    cases hletter
  | duration d =>
    refine iff_of_true ?_ nofun
    obtain ⟨u, us, hus⟩ := List.exists_cons_of_ne_nil h.named
    have hmem : u ∈ d.unit := by
      rw [hus]
      exact List.mem_cons_self
    refine ⟨u, ?_, h.letters u hmem⟩
    rcases h.text with htext | htext
    · exact htext ▸ List.mem_append_right _ hmem
    · exact htext ▸ List.mem_append_right _ (List.mem_cons_of_mem _ hmem)

/-- A text can be read in one way at most. -/
theorem eq_of_fits (h : r.Fits cs) (h' : r'.Fits cs) : r = r' := by
  have hdigit := h.exists_digit_iff.symm.trans h'.exists_digit_iff
  have hletter := h.exists_letter_iff.symm.trans h'.exists_letter_iff
  cases r with
  | words =>
    cases r' with
    | words => rfl
    | literal s => simp [shape] at hdigit
    | duration d => simp [shape] at hdigit
  | literal s =>
    cases r' with
    | words => simp [shape] at hdigit
    | literal s' => rw [Literal.Split.text_injective (h.1.trans h'.1.symm)]
    | duration d => simp [shape] at hletter
  | duration d =>
    cases r' with
    | words => simp [shape] at hdigit
    | literal s => simp [shape] at hletter
    | duration d' =>
      have hd := DurationForm.read?_eq_some_iff.mpr h
      rw [DurationForm.read?_eq_some_iff.mpr h'] at hd
      rw [Option.some.inj hd]

end Term.Reading

namespace Term

variable {c : WallClock} {origin : Int} {text : List Char}

/-- A form is found just when the text can be read in it. -/
theorem attempt?_eq_some_iff {shape : Shape} {x : Except Fault Term} :
    attempt? c origin text shape = some x ↔
      ∃ r : Reading, r.shape = shape ∧ r.Fits (canonical text) ∧ r.outcome c origin text = x := by
  cases shape with
  | words =>
    unfold attempt?
    rw [Option.ite_none_right_eq_some, Option.some.injEq, letters, isWord_filter_iff]
    constructor
    · intro h
      exact ⟨.words, rfl, h⟩
    · rintro ⟨r, hshape, hfits, hx⟩
      cases r with
      | words => exact ⟨hfits, hx⟩
      | literal s => cases hshape
      | duration d => cases hshape
  | literal =>
    simp only [attempt?, Option.map_eq_some_iff, Option.filter_eq_some_iff,
      Literal.read?_eq_some_iff_split]
    constructor
    · rintro ⟨_, ⟨⟨s, htext, rfl⟩, hgrain⟩, hx⟩
      exact ⟨.literal s, rfl, ⟨htext, Literal.Split.grain?_isSome_iff.mp hgrain⟩, hx⟩
    · rintro ⟨r, hshape, hfits, hx⟩
      cases r with
      | words => cases hshape
      | literal s =>
        exact ⟨s.literal, ⟨⟨s, hfits.1, rfl⟩, Literal.Split.grain?_isSome_iff.mpr hfits.2⟩, hx⟩
      | duration d => cases hshape
  | duration =>
    simp only [attempt?, Option.map_eq_some_iff, DurationForm.read?_eq_some_iff]
    constructor
    · rintro ⟨d, hd, hx⟩
      exact ⟨.duration d, rfl, hd, hx⟩
    · rintro ⟨r, hshape, hfits, hx⟩
      cases r with
      | words => cases hshape
      | literal s => cases hshape
      | duration d => exact ⟨d, hfits, hx⟩

/-- The forms are tried one after the other. -/
theorem resolve_eq_findSome? (c : WallClock) (origin : Int) (text : List Char) :
    resolve c origin text =
      ([Shape.words, .literal, .duration].findSome? (attempt? c origin text)).getD
        (.error (.rejected (.unknownTerm (String.ofList text)))) := by
  unfold resolve
  change (if isWord (letters text) = true then Keyword.resolveWord c origin (letters text)
    else _) = _
  simp only [List.findSome?_cons, List.findSome?_nil, attempt?]
  by_cases hword : isWord (letters text) = true
  · rw [if_pos hword, if_pos hword]
    rfl
  · rw [if_neg hword, if_neg hword]
    cases (Literal.read? (canonical text)).filter (·.grain?.isSome) with
    | some l => rfl
    | none => cases DurationForm.read? (canonical text) <;> rfl

/-- Whatever the order of the forms, a text that can be read comes to what its reading says. -/
theorem findSome?_of_fits {r : Reading} (h : r.Fits (canonical text)) {order : List Shape}
    (horder : r.shape ∈ order) :
    order.findSome? (attempt? c origin text) = some (r.outcome c origin text) := by
  have hfound : attempt? c origin text r.shape = some (r.outcome c origin text) :=
    attempt?_eq_some_iff.mpr ⟨r, rfl, h, rfl⟩
  have hsome : (order.findSome? (attempt? c origin text)).isSome = true := by
    rw [List.findSome?_isSome_iff]
    exact ⟨r.shape, horder, by rw [hfound]; rfl⟩
  obtain ⟨x, hx⟩ := Option.isSome_iff_exists.mp hsome
  obtain ⟨shape, -, hattempt⟩ := List.exists_of_findSome?_eq_some hx
  obtain ⟨r', -, hfits, rfl⟩ := attempt?_eq_some_iff.mp hattempt
  rw [hx, Reading.eq_of_fits hfits h]

theorem findSome?_of_not_fits (h : ∀ r : Reading, ¬ r.Fits (canonical text)) (order : List Shape) :
    order.findSome? (attempt? c origin text) = none := by
  rw [List.findSome?_eq_none_iff]
  intro shape _
  rw [Option.eq_none_iff_forall_ne_some]
  intro x hx
  obtain ⟨r, -, hfits, -⟩ := attempt?_eq_some_iff.mp hx
  exact h r hfits

theorem mem_shapes (shape : Shape) : shape ∈ [Shape.words, .literal, .duration] := by
  cases shape <;> decide

theorem resolve_of_fits {r : Reading} (h : r.Fits (canonical text)) :
    resolve c origin text = r.outcome c origin text := by
  rw [resolve_eq_findSome?, findSome?_of_fits h (mem_shapes _)]
  rfl

theorem resolve_of_not_fits (h : ∀ r : Reading, ¬ r.Fits (canonical text)) :
    resolve c origin text = .error (.rejected (.unknownTerm (String.ofList text))) := by
  rw [resolve_eq_findSome?, findSome?_of_not_fits h]
  rfl

/-- The forms may be tried in any order, and more than once. -/
theorem resolve_eq_findSome?_of_forall_mem {order : List Shape} (h : ∀ shape, shape ∈ order) :
    resolve c origin text = (order.findSome? (attempt? c origin text)).getD
      (.error (.rejected (.unknownTerm (String.ofList text)))) := by
  by_cases hfits : ∃ r : Reading, r.Fits (canonical text)
  · obtain ⟨r, hr⟩ := hfits
    rw [resolve_of_fits hr, findSome?_of_fits hr (h r.shape)]
    rfl
  · have hnone := fun r hr => hfits ⟨r, hr⟩
    rw [resolve_of_not_fits hnone, findSome?_of_not_fits hnone]
    rfl

theorem resolve_eq_duration_iff_spells {n : Int} :
    resolve c origin text = .ok (.duration n) ↔
      ∃ d : DurationForm, d.Spells (canonical text) ∧ d.digits.length ≤ maxDigits ∧
        ∃ u : DurationUnit, ∃ a ∈ u.aliases, a.toList = d.unit ∧
        n = digitsValue d.digits * u.millis := by
  rw [resolve_eq_duration_iff]
  constructor
  · rintro ⟨d, hform, hn⟩
    have hd := DurationForm.read?_eq_some_iff.mp (read?_of_form_eq_duration hform)
    exact ⟨d, hd, hd.millis_eq_ok_iff.mp hn⟩
  · rintro ⟨d, hd, hn⟩
    have hmillis := hd.millis_eq_ok_iff.mpr hn
    have hresolve : resolve c origin text = .ok (.duration n) := by
      rw [resolve_of_fits (r := .duration d) hd, Reading.outcome, hmillis]
      rfl
    exact resolve_eq_duration_iff.mp hresolve

/-- Words come to what the keyword of their letters comes to. -/
theorem resolve_of_isWords (h : IsWords (canonical text)) :
    (∃ k : Keyword, k.name.toList = letters text ∧ resolve c origin text = k.resolve c origin) ∨
      (∀ k : Keyword, k.name.toList ≠ letters text) ∧
        resolve c origin text =
          .error (.rejected (.unknownToken (String.ofList (letters text)))) := by
  rw [resolve_of_fits (r := .words) h, Reading.outcome, Keyword.resolveWord]
  cases hname : Keyword.ofName? (letters text) with
  | none =>
    refine Or.inr ⟨fun k hk => ?_, rfl⟩
    rw [Keyword.ofName?_eq_some_iff.mpr hk] at hname
    cases hname
  | some k => exact Or.inl ⟨k, Keyword.ofName?_eq_some_iff.mp hname, rfl⟩

/-- A text in normal form can be read in one way at most, and a date or a time be cut into its
    numbers in one way only. That reading gives the outcome, in whatever order the forms are tried.
    A duration comes just of a numeral that can be read and an alias of a unit; words give what
    their keyword gives, or are an unknown token; a numeral with other letters behind it has an
    unknown unit; and a text that cannot be read is an unknown term. -/
theorem resolve_unambiguous (c : WallClock) (origin : Int) (text : List Char) :
    (∀ r r' : Reading, r.Fits (canonical text) → r'.Fits (canonical text) → r = r') ∧
    Function.Injective Literal.Split.text ∧
    (∀ r : Reading, r.Fits (canonical text) → resolve c origin text = r.outcome c origin text) ∧
    (∀ order : List Shape, (∀ shape, shape ∈ order) →
      resolve c origin text = (order.findSome? (attempt? c origin text)).getD
        (.error (.rejected (.unknownTerm (String.ofList text))))) ∧
    (∀ n, resolve c origin text = .ok (.duration n) ↔
      ∃ d : DurationForm, d.Spells (canonical text) ∧ d.digits.length ≤ maxDigits ∧
        ∃ u : DurationUnit, ∃ a ∈ u.aliases, a.toList = d.unit ∧
          n = digitsValue d.digits * u.millis) ∧
    (IsWords (canonical text) →
      (∃ k : Keyword, k.name.toList = letters text ∧ resolve c origin text = k.resolve c origin) ∨
        (∀ k : Keyword, k.name.toList ≠ letters text) ∧
          resolve c origin text =
            .error (.rejected (.unknownToken (String.ofList (letters text))))) ∧
    (∀ d : DurationForm, d.Spells (canonical text) → d.digits.length ≤ maxDigits →
      (∀ u : DurationUnit, ∀ a ∈ u.aliases, a.toList ≠ d.unit) →
        resolve c origin text = .error (.rejected (.unknownUnit (String.ofList d.unit)))) ∧
    ((∀ r : Reading, ¬ r.Fits (canonical text)) →
      resolve c origin text = .error (.rejected (.unknownTerm (String.ofList text)))) := by
  refine ⟨fun r r' h h' => Reading.eq_of_fits h h', Literal.Split.text_injective,
    fun r h => resolve_of_fits h, fun order h => resolve_eq_findSome?_of_forall_mem h,
    fun n => resolve_eq_duration_iff_spells, resolve_of_isWords, ?_, resolve_of_not_fits⟩
  intro d hd hlen hunit
  rw [resolve_of_fits (r := .duration d) hd, Reading.outcome, hd.millis_of_no_alias hlen hunit]
  rfl

/-- A month and an hour run together are read as just that, five days are a duration, and no unit is
    called a fortnight. -/
theorem resolve_unambiguous_run_together (c : WallClock) (origin : Int) :
    (∃ s : Literal.Split, s.text = canonical "2010-0305".toList ∧
      s.literal = ⟨some (.month 2010 3), some (.hour 5)⟩ ∧
      (∀ s' : Literal.Split, s'.text = canonical "2010-0305".toList → s' = s) ∧
      resolve c origin "2010-0305".toList =
        (s.literal.resolve c origin "2010-0305".toList).map .interval) ∧
    resolve c origin "5 Days".toList = .ok (.duration 432000000) ∧
    resolve c origin "2 fortnights".toList = .error (.rejected (.unknownUnit "fortnights")) := by
  refine ⟨?_, ?_, ?_⟩
  · obtain ⟨-, hcut, hread, -⟩ := resolve_unambiguous c origin "2010-0305".toList
    let s : Literal.Split :=
      ⟨some ⟨['2', '0', '1', '0'], [['0', '3']], rfl, List.all_eq_true.mp (by decide),
          List.forall_mem_singleton.mpr ⟨rfl, List.all_eq_true.mp (by decide)⟩, by simp⟩,
        false, some ⟨['0', '5'], [], Or.inr rfl, List.all_eq_true.mp (by decide), by simp, by simp⟩⟩
    have hs : s.text = canonical "2010-0305".toList := by decide +kernel
    exact ⟨s, hs, by decide +kernel, fun s' hs' => hcut (hs'.trans hs.symm),
      hread (.literal s) ⟨hs, Or.inl rfl⟩⟩
  · obtain ⟨-, -, -, -, hduration, -⟩ := resolve_unambiguous c origin "5 Days".toList
    refine (hduration 432000000).mpr
      ⟨⟨['5'], "days".toList⟩, ?_, by decide, .day, "days", by decide⟩
    exact ⟨by simp, List.all_eq_true.mp (by decide), by simp, List.all_eq_true.mp (by decide),
      by decide +kernel⟩
  · obtain ⟨-, -, -, -, -, -, hunit, -⟩ := resolve_unambiguous c origin "2 fortnights".toList
    refine hunit ⟨['2'], "fortnights".toList⟩ ?_ (by decide) ?_
    · exact ⟨by simp, List.all_eq_true.mp (by decide), by simp, List.all_eq_true.mp (by decide),
        by decide +kernel⟩
    · intro u
      cases u <;> decide

end Term

end Timespan
