/-
  Timestamps as they are written, to the millisecond and below it. A style says with which
  separators a date, a time of day and an offset stand; in every style the offset and the fraction
  are read exactly, and digits below the millisecond only ever go down to it
  (`readInstant_written`), before 1970 as after it. The instant itself need not lie in the calendar,
  only what its clock shows.
-/
import Timespan.Proofs.Calendar.Width
import Timespan.Proofs.Clock.Utc
import Timespan.Proofs.Text.Words
import Timespan.Proofs.Timestamp.Read
import Timespan.Timestamp.Write

namespace Timespan

open Timespan.Calendar Timespan.Text

/-- Fields in range take no more digits than they are given. -/
theorem Calendar.Fields.Canonical.widths {v : Fields} (h : v.Canonical) :
    (0 ≤ v.year ∧ v.year.toNat < Nat.pow 10 4) ∧ (0 ≤ v.month ∧ v.month.toNat < Nat.pow 10 2) ∧
      (0 ≤ v.day ∧ v.day.toNat < Nat.pow 10 2) ∧ (0 ≤ v.hour ∧ v.hour.toNat < Nat.pow 10 2) ∧
      (0 ≤ v.minute ∧ v.minute.toNat < Nat.pow 10 2) ∧
      (0 ≤ v.second ∧ v.second.toNat < Nat.pow 10 2) ∧
      (0 ≤ v.milli ∧ v.milli.toNat < Nat.pow 10 3) := by
  obtain ⟨hvalid, hyear⟩ := h
  have hday := hvalid.day_le
  have hmonth : 1 ≤ v.month ∧ v.month ≤ 12 := hvalid.date.month
  have hfirst : 1 ≤ v.day := hvalid.date.day.1
  obtain ⟨-, hhour, hminute, hsecond, hmilli⟩ := hvalid
  simp only [Nat.pow_eq]
  omega

namespace Timestamp

/-! ## Characters -/

/-- A text consists of digits and some marks. -/
def MadeOf (marks cs : List Char) : Prop := ∀ c ∈ cs, c.isDigit = true ∨ c ∈ marks

section

variable {marks xs ys : List Char} {c : Char}

theorem MadeOf.append (hx : MadeOf marks xs) (hy : MadeOf marks ys) : MadeOf marks (xs ++ ys) :=
  List.forall_mem_append.mpr ⟨hx, hy⟩

theorem MadeOf.cons (hc : c ∈ marks) (h : MadeOf marks xs) : MadeOf marks (c :: xs) :=
  List.forall_mem_cons.mpr ⟨Or.inr hc, h⟩

theorem MadeOf.mono {marks' : List Char} (h : MadeOf marks xs) (hsub : marks ⊆ marks') :
    MadeOf marks' xs :=
  fun c hc => (h c hc).imp_right fun hmark => hsub hmark

theorem MadeOf.not_mem (h : MadeOf marks xs) (hdigit : c.isDigit = false) (hc : c ∉ marks) :
    c ∉ xs := by
  intro hmem
  rcases h c hmem with hd | hmark
  · exact absurd hdigit (by simp [hd])
  · exact hc hmark

theorem MadeOf.not_blank (h : MadeOf marks xs) (hmarks : marks.all (!isBlank ·) = true) :
    ∀ c ∈ xs, isBlank c = false := by
  intro c hc
  rcases h c hc with hd | hmark
  · exact (solid_of_isDigit hd).1
  · simpa using List.all_eq_true.mp hmarks c hmark

theorem madeOf_padded (marks : List Char) (width n : Nat) : MadeOf marks (padded width n) :=
  fun _ hc => Or.inl (isDigit_of_mem_padded hc)

theorem madeOf_field (h : ':' ∈ marks) (separated : Bool) (n : Nat) :
    MadeOf marks (field separated n) := by
  unfold field
  cases separated with
  | false => exact madeOf_padded marks 2 n
  | true => exact MadeOf.cons h (madeOf_padded marks 2 n)

end

/-! ## Styles -/

/-- How a timestamp is written: the date with hyphens or without, a T or a space after it, the times
    with colons or without, a point or a comma before the fraction, and either sign before an offset
    of zero. -/
structure Style where
  hyphens : Bool
  separator : Char
  colons : Bool
  mark : Char
  zeroSign : Char
  separator_eq : separator = 'T' ∨ separator = ' ' := by decide
  mark_eq : mark = '.' ∨ mark = ',' := by decide
  zeroSign_eq : zeroSign = '+' ∨ zeroSign = '-' := by decide

namespace Style

/-- The style in which the writer writes. -/
def extended : Style :=
  { hyphens := true, separator := 'T', colons := true, mark := '.', zeroSign := '+' }

/-- As short a style as there is, with a comma. -/
def compact : Style :=
  { hyphens := false, separator := ' ', colons := false, mark := ',', zeroSign := '-' }

def dateText (s : Style) (v : Fields) : List Char :=
  let month := padded 2 v.month.toNat
  let day := padded 2 v.day.toNat
  padded 4 v.year.toNat ++ if s.hyphens then '-' :: (month ++ '-' :: day) else month ++ day

/-- A time of day with the digits of its milliseconds and further digits behind them. -/
def clockText (s : Style) (v : Fields) (further : List Char) : List Char :=
  padded 2 v.hour.toNat ++ (field s.colons v.minute.toNat ++
    (field s.colons v.second.toNat ++ s.mark :: (padded 3 v.milli.toNat ++ further)))

def sign (s : Style) (offset : Int) : Char :=
  if offset < 0 then '-' else if offset = 0 then s.zeroSign else '+'

/-- The size of an offset in seconds. The seconds of the minute are written if there are any. -/
def sizeText (s : Style) (size : Nat) : List Char :=
  padded 2 (size / 3600) ++ (field s.colons (size / 60 % 60) ++
    if size % 60 = 0 then [] else field s.colons (size % 60))

/-- An offset in seconds, if there is one. -/
def offsetText (s : Style) : Option Int → List Char
  | none => []
  | some offset => s.sign offset :: s.sizeText offset.natAbs

def text (s : Style) (v : Fields) (further : List Char) (offset? : Option Int) : List Char :=
  s.dateText v ++ s.separator :: (s.clockText v further ++ s.offsetText offset?)

variable {s : Style} {v : Fields} {further : List Char} {offset : Int} {offset? : Option Int}
  {n : Nat}

theorem sign_eq (s : Style) (offset : Int) : s.sign offset = '+' ∨ s.sign offset = '-' := by
  unfold sign
  split
  · exact Or.inr rfl
  · split
    · exact s.zeroSign_eq
    · exact Or.inl rfl

theorem madeOf_dateText : MadeOf ['-'] (s.dateText v) := by
  have hdigits := madeOf_padded ['-']
  have hyphen : '-' ∈ ['-'] := List.mem_cons_self
  unfold dateText
  refine (hdigits _ _).append ?_
  split
  · exact .cons hyphen ((hdigits _ _).append (.cons hyphen (hdigits _ _)))
  · exact (hdigits _ _).append (hdigits _ _)

theorem madeOf_clockText (hfurther : ∀ c ∈ further, c.isDigit = true) :
    MadeOf [':', '.', ','] (s.clockText v further) := by
  have hcolon : ':' ∈ [':', '.', ','] := by decide
  have hmark : s.mark ∈ [':', '.', ','] := by
    rcases s.mark_eq with h | h <;> (rw [h]; decide)
  have hfraction : MadeOf [':', '.', ','] (padded 3 v.milli.toNat ++ further) :=
    (madeOf_padded _ _ _).append fun c hc => Or.inl (hfurther c hc)
  unfold clockText
  exact (madeOf_padded _ _ _).append ((madeOf_field hcolon _ _).append
    ((madeOf_field hcolon _ _).append (.cons hmark hfraction)))

theorem madeOf_offsetText : MadeOf [':', '+', '-'] (s.offsetText offset?) := by
  cases offset? with
  | none => exact nofun
  | some offset =>
    have hcolon : ':' ∈ [':', '+', '-'] := by decide
    have hsign : s.sign offset ∈ [':', '+', '-'] := by
      rcases s.sign_eq offset with h | h <;> (rw [h]; decide)
    rw [offsetText, sizeText]
    refine .cons hsign ((madeOf_padded _ _ _).append ((madeOf_field hcolon _ _).append ?_))
    split
    · exact nofun
    · exact madeOf_field hcolon _ _

/-- What stands behind the separator. -/
theorem madeOf_clockText_offsetText (hfurther : ∀ c ∈ further, c.isDigit = true) :
    MadeOf [':', '.', ',', '+', '-'] (s.clockText v further ++ s.offsetText offset?) :=
  ((madeOf_clockText hfurther).mono (by decide)).append (madeOf_offsetText.mono (by decide))

/-! ## Reading back -/

theorem date?_dateText (h : v.Canonical) (rest : List Char) :
    date? (s.dateText v ++ rest) = some (v.date.dayNumber, rest) := by
  obtain ⟨hyear, hmonth, hday, -⟩ := h.widths
  have hy := digits_padded hyear.2
  have hm := digits_padded hmonth.2
  have hd := digits_padded hday.2
  have hvalue := dateDay?_eq h
  unfold dateText
  split
  · simp only [List.append_assoc, List.cons_append, date?_dashed hy hm hd, hvalue, Option.map_some]
  · simp only [List.append_assoc, date?_compact hy hm hd, hvalue, Option.map_some]

/-- A time of day is read back to its end and to the millisecond. -/
theorem exists_read?_clockText (h : v.Canonical) (hfurther : ∀ c ∈ further, c.isDigit = true) :
    ∃ r : Reading, Reading.read? (s.clockText v further) = some (r, []) ∧ r.isValid = true ∧
      r.micros / 1000 = v.hour * 3600000 + v.minute * 60000 + v.second * 1000 + v.milli := by
  obtain ⟨-, -, -, hhour, hminute, hsecond, hmilli⟩ := h.widths
  obtain ⟨-, hhours, hminutes, hseconds, -⟩ := h.valid
  obtain ⟨micro, hfraction, hmicro⟩ := exists_fraction?_millis hmilli.2 hfurther
  have hne : padded 3 v.milli.toNat ++ further ≠ [] := by simp [padded]
  refine ⟨⟨v.hour.toNat, v.minute.toNat, v.second.toNat, micro⟩, ?_, ?_, ?_⟩
  · rw [clockText, reading?_clock hhour.2 hminute.2 hsecond.2 s.mark_eq hne, hfraction]
    rfl
  · simp only [Reading.isValid, Bool.and_eq_true, decide_eq_true_eq]
    omega
  · simp only [Reading.micros, Reading.seconds]
    omega

theorem signedOffset?_sizeText {sign : Char} (h : n < 86400) :
    signedOffset? sign (s.sizeText n) =
      some (if sign = '-' then -(1000000 * (n : Int)) else 1000000 * (n : Int)) := by
  have hhour : n / 3600 < Nat.pow 10 2 := by
    rw [Nat.pow_eq]
    omega
  have hsixty : ∀ m, m % 60 < Nat.pow 10 2 := by
    intro m
    rw [Nat.pow_eq]
    omega
  have hseconds : Reading.seconds ⟨n / 3600, n / 60 % 60, n % 60, 0⟩ = n := by
    simp only [Reading.seconds]
    omega
  have hmicros : Reading.micros ⟨n / 3600, n / 60 % 60, n % 60, 0⟩ = 1000000 * n := by
    simp only [Reading.micros, hseconds]
    omega
  have hsize : (if (n : Int) = 0 then 0 else 1000000 * (n : Int)) = 1000000 * (n : Int) := by
    split <;> omega
  have hday : 1000000 * (n : Int) < 86400000000 := by omega
  rw [signedOffset?, sizeText, reading?_whole hhour (hsixty _) (hsixty _)]
  simp only [Option.bind_eq_bind, Option.bind_some, hseconds, hmicros, hsize, isOver, hday,
    decide_true, Bool.and_self, if_true, Option.pure_def]

/-- The sign and the size of an offset of less than a day are read as the offset. -/
theorem signedOffset?_offset (h : -86400 < offset ∧ offset < 86400) :
    signedOffset? (s.sign offset) (s.sizeText offset.natAbs) = some (1000000 * offset) := by
  rw [signedOffset?_sizeText (by omega), Option.some.injEq]
  unfold sign
  by_cases hneg : offset < 0
  · rw [if_pos hneg, if_pos rfl]
    omega
  · by_cases hzero : offset = 0
    · rw [hzero]
      simp
    · rw [if_neg hneg, if_neg hzero, if_neg (by decide)]
      omega

theorem timeOfDay?_clockText {r : Reading} (hfurther : ∀ c ∈ further, c.isDigit = true)
    (hread : Reading.read? (s.clockText v further) = some (r, [])) (hvalid : r.isValid = true)
    (hoffset : ∀ offset ∈ offset?, -86400 < offset ∧ offset < 86400) :
    timeOfDay? (s.clockText v further ++ s.offsetText offset?) =
      some (r, offset?.map (1000000 * ·)) := by
  have hclock := madeOf_clockText (s := s) (v := v) hfurther
  have htime : ∀ c ∈ s.clockText v further, c ≠ '+' ∧ c ≠ '-' := fun c hc =>
    ⟨ne_of_mem_of_not_mem hc (hclock.not_mem (by decide) (by decide)),
      ne_of_mem_of_not_mem hc (hclock.not_mem (by decide) (by decide))⟩
  cases offset? with
  | none =>
    rw [offsetText, List.append_nil, timeOfDay?_unsigned htime, hread]
    simp [hvalid, isOver]
  | some offset =>
    rw [offsetText, timeOfDay?_signed htime (s.sign_eq offset), hread]
    simp [hvalid, signedOffset?_offset (hoffset offset rfl)]

/-- A timestamp is read back with its offset, in the millisecond of its wall time. -/
theorem exists_read?_text (h : v.Canonical) (hfurther : ∀ c ∈ further, c.isDigit = true)
    (hoffset : ∀ offset ∈ offset?, -86400 < offset ∧ offset < 86400) :
    ∃ wall, read? (s.text v further offset?) = some ⟨wall, offset?.map (1000000 * ·)⟩ ∧
      wall / 1000 = v.rolled := by
  have hrest : MadeOf [':', '.', ',', '+', '-'] (s.clockText v further ++ s.offsetText offset?) :=
    madeOf_clockText_offsetText hfurther
  have hplain : 'Z' ∉ s.text v further offset? := by
    have hseparator : 'Z' ≠ s.separator := by
      rcases s.separator_eq with h | h <;> (rw [h]; decide)
    rw [text, List.mem_append, List.mem_cons]
    rintro (h | h | h)
    · exact madeOf_dateText.not_mem (by decide) (by decide) h
    · exact hseparator h
    · exact hrest.not_mem (by decide) (by decide) h
  obtain ⟨r, hread, hvalid, hmillis⟩ := exists_read?_clockText (s := s) h hfurther
  refine ⟨v.date.dayNumber * dayMillis * 1000 + r.micros, ?_, ?_⟩
  · rw [read?, expandZulu_of_not_mem fun c hc => ne_of_mem_of_not_mem hc hplain, text,
      date?_dateText h]
    simp only [Option.bind_eq_bind, Option.bind_some,
      timeOfDay?_clockText hfurther hread hvalid hoffset]
    rfl
  · rw [Fields.rolled_eq_date h.valid]
    simp only [dayMillis]
    omega

/-! ## Instants -/

theorem isWord_dateText : IsWord (s.dateText v) :=
  ⟨by simp [dateText, padded], madeOf_dateText.not_blank (by decide)⟩

/-- Nothing is trimmed off a timestamp, though a space may stand in it. -/
theorem trim_text (hfurther : ∀ c ∈ further, c.isDigit = true) :
    trim (s.text v further offset?) = s.text v further offset? := by
  have hlast : IsWord (s.clockText v further ++ s.offsetText offset?) :=
    ⟨by simp [clockText, padded], (madeOf_clockText_offsetText hfurther).not_blank (by decide)⟩
  rw [text, List.append_cons, hlast.trim_append, isWord_dateText.trimStart_append]

/-- The separator keeps a timestamp from being taken for a number. -/
theorem not_looksNumeric_text (hfurther : ∀ c ∈ further, c.isDigit = true) :
    ¬ LooksNumeric (s.text v further offset?) := by
  have hmem : s.separator ∈ trim (s.text v further offset?) := by
    rw [trim_text hfurther, text]
    exact List.mem_append_right _ List.mem_cons_self
  have hseparator : s.separator ≠ '-' ∧ isDigitLike s.separator = false := by
    rcases s.separator_eq with h | h <;> (rw [h]; decide)
  exact not_looksNumeric_of_mem hmem hseparator.1 hseparator.2

/-- With an offset a timestamp is read as the instant that it gives, and without one as the instant
    at which the clock of the host shows it. -/
theorem readInstant_eq (host : Zone) (h : v.Canonical)
    (hfurther : ∀ c ∈ further, c.isDigit = true)
    (hoffset : ∀ offset ∈ offset?, -86400 < offset ∧ offset < 86400) :
    readInstant host (s.text v further offset?) =
      match offset? with
      | some offset => .ok (v.rolled - 1000 * offset)
      | none => (host.searchInstant v.rolled).mapError InstantFault.ofSearch := by
  obtain ⟨wall, hread, hwall⟩ := s.exists_read?_text h hfurther hoffset
  rw [readInstant_of_not_looksNumeric host (not_looksNumeric_text hfurther), trim_text hfurther,
    hread]
  cases offset? with
  | none => simp only [Option.map_none, Timestamp.instant, hwall]
  | some offset =>
    have hinstant : (wall - 1000000 * offset) / 1000 = v.rolled - 1000 * offset := by omega
    simp only [Option.map_some, Timestamp.instant, hinstant]
    rfl

end Style

end Timestamp

variable {t o : Int} {further : List Char}

/-- A timestamp with an offset is read as the instant whose wall time it gives. -/
theorem readInstant_written (host : Zone) (s : Timestamp.Style)
    (ho : -86400 < o ∧ o < 86400) (hin : inCalendar (t + 1000 * o) = true)
    (hfurther : ∀ c ∈ further, c.isDigit = true) :
    readInstant host (s.text (Fields.ofWall (t + 1000 * o)) further (some o)) = .ok t := by
  have hoffset : ∀ offset ∈ some o, -86400 < offset ∧ offset < 86400 := by
    intro offset h
    obtain rfl := Option.some.inj h
    exact ho
  rw [s.readInstant_eq host (WallClock.canonical_ofWall hin) hfurther hoffset]
  simp

/-- The first second of the calendar on a clock that is almost a day ahead of UTC, where it is still
    the year before, and the last microsecond before 1970. -/
theorem readInstant_written_early :
    readInstant Zone.utc "00010101 000000,000999+235959".toList = .ok (-62135683199000) ∧
    readInstant Zone.utc "1969-12-31T23:59:59.999999+00:00".toList = .ok (-1) := by
  have hdigits : ∀ c ∈ ['9', '9', '9'], c.isDigit = true := List.all_eq_true.mp (by decide)
  have hfirst : Timestamp.Style.compact.text (Fields.ofWall (-62135683199000 + 1000 * 86399))
      ['9', '9', '9'] (some 86399) = "00010101 000000,000999+235959".toList := by
    decide +kernel
  have hlast : Timestamp.Style.extended.text (Fields.ofWall (-1 + 1000 * 0)) ['9', '9', '9']
      (some 0) = "1969-12-31T23:59:59.999999+00:00".toList := by
    decide +kernel
  rw [← hfirst, ← hlast]
  exact ⟨readInstant_written Zone.utc _ (by decide) (by decide) hdigits,
    readInstant_written Zone.utc _ (by decide) (by decide) hdigits⟩

end Timespan
