/-
  Where the numbers of a literal stand in its text. Every part of a literal may be left out, the
  space between date and time too, and yet a text can be cut into its numbers in one way only
  (`Split.text_injective`): a year has four digits and an hour at most two, and what stands behind a
  date never starts with a hyphen. The reader of literals finds just that cut
  (`read?_eq_some_iff_split`).
-/
import Timespan.Proofs.Term.Read

namespace Timespan.Literal

open Timespan.Text

/-- Two digits of any script. -/
def IsPair (ds : List Char) : Prop := ds.length = 2 ∧ ∀ c ∈ ds, isDigit c = true

/-- The digits of a date or of a time as they stand in a text: the first number, of a width that it
    may have, and behind it at most two numbers of two digits. -/
@[ext]
structure Groups (Width : Nat → Prop) where
  first : List Char
  further : List (List Char)
  width : Width first.length
  digits : ∀ c ∈ first, isDigit c = true
  pairs : ∀ ds ∈ further, IsPair ds
  few : further.length ≤ 2

def YearWidth (n : Nat) : Prop := n = 4

def HourWidth (n : Nat) : Prop := n = 1 ∨ n = 2

/-- The numbers in a row, with a separator before each but the first. -/
def Groups.text {Width : Nat → Prop} (separator : Char) (g : Groups Width) : List Char :=
  g.first ++ g.further.flatMap (separator :: ·)

/-- Year, month and day. -/
def Groups.date (g : Groups YearWidth) : DatePart :=
  match g.further with
  | [] => .year (digitsValue g.first)
  | [m] => .month (digitsValue g.first) (digitsValue m)
  | m :: d :: _ => .day (digitsValue g.first) (digitsValue m) (digitsValue d)

/-- Hour, minute and second. -/
def Groups.time (g : Groups HourWidth) : TimePart :=
  match g.further with
  | [] => .hour (digitsValue g.first)
  | [m] => .minute (digitsValue g.first) (digitsValue m)
  | m :: s :: _ => .second (digitsValue g.first) (digitsValue m) (digitsValue s)

/-- A text cut into the numbers of a literal: the date, whether a space follows, and the time. -/
@[ext]
structure Split where
  date? : Option (Groups YearWidth)
  space : Bool
  time? : Option (Groups HourWidth)

namespace Split

/-- The text of the time. -/
def timeText (s : Split) : List Char := (s.time?.map (Groups.text ':')).getD []

/-- All that stands behind the date. -/
def rest (s : Split) : List Char := if s.space then ' ' :: s.timeText else s.timeText

def text (s : Split) : List Char := (s.date?.map (Groups.text '-')).getD [] ++ s.rest

/-- The literal of these numbers. -/
def literal (s : Split) : Literal := ⟨s.date?.map Groups.date, s.time?.map Groups.time⟩

end Split

/-! ## One text, one cut -/

/-- Pairs of characters behind separators are told off a text that does not go on with one. -/
theorem further_eq_of_append_eq {separator : Char} {xs ys : List (List Char)} {r r' : List Char}
    (hx : ∀ ds ∈ xs, IsPair ds) (hy : ∀ ds ∈ ys, IsPair ds)
    (hr : r.head? ≠ some separator) (hr' : r'.head? ≠ some separator)
    (h : xs.flatMap (separator :: ·) ++ r = ys.flatMap (separator :: ·) ++ r') :
    xs = ys ∧ r = r' := by
  induction xs generalizing ys with
  | nil =>
    cases ys with
    | nil => exact ⟨rfl, h⟩
    | cons y ys =>
      refine absurd ?_ hr
      rw [List.flatMap_nil, List.nil_append] at h
      rw [h]
      rfl
  | cons x xs ih =>
    cases ys with
    | nil =>
      refine absurd ?_ hr'
      rw [List.flatMap_nil, List.nil_append] at h
      rw [← h]
      rfl
    | cons y ys =>
      obtain ⟨hx0, hxs⟩ := List.forall_mem_cons.mp hx
      obtain ⟨hy0, hys⟩ := List.forall_mem_cons.mp hy
      simp only [List.flatMap_cons, List.cons_append, List.append_assoc] at h
      obtain ⟨rfl, htail⟩ := List.append_inj (List.cons.inj h).2 (hx0.1.trans hy0.1.symm)
      obtain ⟨rfl, hrest⟩ := ih hxs hys htail
      exact ⟨rfl, hrest⟩

namespace Groups

variable {Width : Nat → Prop} {separator : Char}

/-- Numbers are told off a text that does not go on with a separator, once the width of the first
    is known. -/
theorem eq_of_append_eq {g g' : Groups Width} {r r' : List Char}
    (hfirst : g.first.length = g'.first.length) (hr : r.head? ≠ some separator)
    (hr' : r'.head? ≠ some separator) (h : g.text separator ++ r = g'.text separator ++ r') :
    g = g' ∧ r = r' := by
  unfold text at h
  rw [List.append_assoc, List.append_assoc] at h
  obtain ⟨heq, htail⟩ := List.append_inj h hfirst
  obtain ⟨hfurther, hrest⟩ := further_eq_of_append_eq g.pairs g'.pairs hr hr' htail
  exact ⟨Groups.ext heq hfurther, hrest⟩

/-- The first number ends where the digits end. -/
theorem takeWhile_text (g : Groups Width) (hs : isDigit separator = false) :
    (g.text separator).takeWhile isDigit = g.first := by
  unfold text
  rw [List.takeWhile_append_of_pos g.digits]
  cases g.further with
  | nil => exact List.append_nil _
  | cons ds further => rw [List.flatMap_cons, List.cons_append, List.takeWhile_cons_of_neg
      (by simp [hs]), List.append_nil]

theorem eq_of_text_eq {g g' : Groups Width} (hs : isDigit separator = false)
    (h : g.text separator = g'.text separator) : g = g' := by
  have hfirst : g.first = g'.first := by rw [← g.takeWhile_text hs, h, g'.takeWhile_text hs]
  have happend : g.text separator ++ [] = g'.text separator ++ [] := congrArg (· ++ []) h
  exact (eq_of_append_eq (congrArg List.length hfirst) (by simp) (by simp) happend).1

/-- Numbers stand where digits do or a separator. -/
theorem mem_text {g : Groups Width} {c : Char} (h : c ∈ g.text separator) :
    isDigit c = true ∨ c = separator := by
  rw [text, List.mem_append] at h
  rcases h with h | h
  · exact Or.inl (g.digits c h)
  · obtain ⟨ds, hds, hc⟩ := List.mem_flatMap.mp h
    rcases List.mem_cons.mp hc with hc | hc
    · exact Or.inr hc
    · exact Or.inl ((g.pairs ds hds).2 c hc)

/-- A time starts with a digit. -/
theorem exists_text_eq_cons (g : Groups HourWidth) (separator : Char) :
    ∃ c cs, g.text separator = c :: cs ∧ isDigit c = true := by
  have hne : g.first ≠ [] := by
    intro hnil
    have hwidth := g.width
    rw [hnil] at hwidth
    cases hwidth <;> contradiction
  obtain ⟨c, cs, hfirst⟩ := List.exists_cons_of_ne_nil hne
  refine ⟨c, cs ++ g.further.flatMap (separator :: ·), ?_, ?_⟩
  · rw [text, hfirst, List.cons_append]
  · exact g.digits c (by rw [hfirst]; exact List.mem_cons_self)

/-- A time does not start with the digits of a year. -/
theorem not_beginsWithDigits (g : Groups HourWidth) : ¬ BeginsWithDigits 4 (g.text ':') := by
  rintro ⟨hlen, hdigits⟩
  have hwidth : g.first.length ≤ 2 := by
    rcases g.width with h | h <;> omega
  unfold text at hlen hdigits
  cases hfurther : g.further with
  | nil =>
    rw [hfurther, List.flatMap_nil, List.append_nil] at hlen
    omega
  | cons ds further =>
    have hmem : ':' ∈ (g.first ++ g.further.flatMap (':' :: ·)).take 4 := by
      rw [hfurther, List.take_append, show 4 - g.first.length = (3 - g.first.length) + 1 by omega]
      exact List.mem_append_right _ List.mem_cons_self
    exact absurd (hdigits ':' hmem) (by decide)

end Groups

namespace Split

variable {s s' : Split}

theorem timeText_cases (s : Split) :
    s.timeText = [] ∨ ∃ c cs, s.timeText = c :: cs ∧ isDigit c = true := by
  unfold timeText
  cases s.time? with
  | none => exact Or.inl rfl
  | some g => exact Or.inr (g.exists_text_eq_cons ':')

/-- The text of the time does not start with a separator of any kind. -/
theorem head?_timeText {c : Char} (hc : isDigit c = false) (s : Split) :
    s.timeText.head? ≠ some c := by
  intro h
  rcases s.timeText_cases with hnil | ⟨d, ds, htext, hd⟩
  · rw [hnil] at h
    cases h
  · rw [htext, List.head?_cons, Option.some.injEq] at h
    rw [h, hc] at hd
    cases hd

theorem head?_rest (s : Split) : s.rest.head? ≠ some '-' := by
  unfold rest
  split
  · simp
  · exact s.head?_timeText (by decide)

theorem not_beginsWithDigits_rest (s : Split) : ¬ BeginsWithDigits 4 s.rest := by
  unfold rest
  split
  · rintro ⟨-, hdigits⟩
    exact absurd (hdigits ' ' List.mem_cons_self) (by decide)
  · unfold timeText
    cases s.time? with
    | none => decide
    | some g => exact g.not_beginsWithDigits

theorem beginsWithDigits_text {g : Groups YearWidth} (r : List Char) :
    BeginsWithDigits 4 (g.text '-' ++ r) := by
  have hlen : g.first.length = 4 := g.width
  unfold Groups.text
  rw [List.append_assoc]
  refine ⟨?_, ?_⟩
  · rw [List.length_append]
    omega
  · rw [List.take_left' hlen]
    exact g.digits

theorem time?_eq_of_timeText_eq (h : s.timeText = s'.timeText) : s.time? = s'.time? := by
  unfold timeText at h
  cases ht : s.time? with
  | none =>
    cases ht' : s'.time? with
    | none => rfl
    | some g' =>
      obtain ⟨c, cs, hg', -⟩ := g'.exists_text_eq_cons ':'
      rw [ht, ht', Option.map_some, Option.getD_some, hg'] at h
      cases h
  | some g =>
    obtain ⟨c, cs, hg, -⟩ := g.exists_text_eq_cons ':'
    cases ht' : s'.time? with
    | none =>
      rw [ht, ht', Option.map_some, Option.getD_some, hg] at h
      cases h
    | some g' =>
      rw [ht, ht'] at h
      exact congrArg some (Groups.eq_of_text_eq (by decide) h)

theorem eq_of_rest_eq (h : s.rest = s'.rest) : s.space = s'.space ∧ s.time? = s'.time? := by
  unfold rest at h
  split at h
  · rename_i hs
    split at h
    · rename_i hs'
      exact ⟨hs.trans hs'.symm, time?_eq_of_timeText_eq (List.cons.inj h).2⟩
    · exact absurd (congrArg List.head? h).symm (s'.head?_timeText (by decide))
  · rename_i hs
    split at h
    · exact absurd (congrArg List.head? h) (s.head?_timeText (by decide))
    · rename_i hs'
      rw [Bool.not_eq_true] at hs hs'
      exact ⟨hs.trans hs'.symm, time?_eq_of_timeText_eq h⟩

theorem text_of_dateless (h : s.date? = none) : s.text = s.rest := by
  rw [text, h]
  rfl

theorem text_of_dated {g : Groups YearWidth} (h : s.date? = some g) :
    s.text = g.text '-' ++ s.rest := by
  rw [text, h]
  rfl

/-- A text is cut into the numbers of a literal in one way only. -/
theorem text_injective : Function.Injective text := by
  intro s s' h
  obtain ⟨hdate, hrest⟩ : s.date? = s'.date? ∧ s.rest = s'.rest := by
    cases hd : s.date? with
    | none =>
      cases hd' : s'.date? with
      | none =>
        rw [text_of_dateless hd, text_of_dateless hd'] at h
        exact ⟨rfl, h⟩
      | some g' =>
        rw [text_of_dateless hd, text_of_dated hd'] at h
        exact absurd (h ▸ beginsWithDigits_text s'.rest) s.not_beginsWithDigits_rest
    | some g =>
      cases hd' : s'.date? with
      | none =>
        rw [text_of_dated hd, text_of_dateless hd'] at h
        exact absurd (h ▸ beginsWithDigits_text s.rest) s'.not_beginsWithDigits_rest
      | some g' =>
        rw [text_of_dated hd, text_of_dated hd'] at h
        have hwidth : g.first.length = g'.first.length := Eq.trans g.width (Eq.symm g'.width)
        obtain ⟨hg, hrest⟩ := Groups.eq_of_append_eq hwidth s.head?_rest s'.head?_rest h
        exact ⟨congrArg some hg, hrest⟩
  obtain ⟨hspace, htime⟩ := eq_of_rest_eq hrest
  exact Split.ext hdate hspace htime

end Split

/-! ## The reader finds the cut -/

theorem after?_eq_some_iff {separator : Char} {cs r : List Char} :
    after? separator cs = some r ↔ cs = separator :: r := by
  cases cs with
  | nil => simp [after?]
  | cons c cs => simp [after?]

theorem after?_eq_none_iff {separator : Char} {cs : List Char} :
    after? separator cs = none ↔ cs.head? ≠ some separator := by
  cases cs with
  | nil => simp [after?]
  | cons c cs => simp [after?]

theorem twoDigits?_eq_some_iff {cs r : List Char} {n : Nat} :
    twoDigits? cs = some (n, r) ↔ ∃ ds, IsPair ds ∧ cs = ds ++ r ∧ digitsValue ds = n := by
  unfold twoDigits? IsPair
  simp only [nextNumber?_eq_some_iff, and_assoc]

theorem twoDigits?_append {ds : List Char} (h : IsPair ds) (r : List Char) :
    twoDigits? (ds ++ r) = some (digitsValue ds, r) :=
  twoDigits?_eq_some_iff.mpr ⟨ds, h, rfl, rfl⟩

theorem exists_digits_of_hourDigits? {cs r : List Char} {n : Nat}
    (h : hourDigits? cs = some (n, r)) :
    ∃ ds : List Char, HourWidth ds.length ∧ (∀ c ∈ ds, isDigit c = true) ∧ cs = ds ++ r ∧
      digitsValue ds = n := by
  unfold hourDigits? at h
  rcases Option.or_eq_some_iff.mp h with h | ⟨-, h⟩
  · obtain ⟨ds, ⟨hlen, hdigits⟩, hds⟩ := twoDigits?_eq_some_iff.mp h
    exact ⟨ds, Or.inr hlen, hdigits, hds⟩
  · obtain ⟨ds, hlen, hdigits, hds⟩ := nextNumber?_eq_some_iff.mp h
    exact ⟨ds, Or.inl hlen, hdigits, hds⟩

/-- One digit is read as the hour if no second one follows. -/
theorem hourDigits?_append {ds r : List Char} (hw : HourWidth ds.length)
    (hd : ∀ c ∈ ds, isDigit c = true) (hr : ∀ c, r.head? = some c → isDigit c = false) :
    hourDigits? (ds ++ r) = some (digitsValue ds, r) := by
  unfold hourDigits?
  rcases hw with hlen | hlen
  · have htwo : twoDigits? (ds ++ r) = none := by
      rw [← Option.not_isSome_iff_eq_none]
      intro h
      obtain ⟨hlong, hdigits⟩ := nextNumber?_isSome_iff.mp h
      cases r with
      | nil =>
        rw [List.append_nil, hlen] at hlong
        omega
      | cons c cs =>
        have hmem : c ∈ (ds ++ c :: cs).take 2 := by
          rw [List.take_append, hlen]
          exact List.mem_append_right _ List.mem_cons_self
        have hdigit := hdigits c hmem
        rw [hr c rfl] at hdigit
        cases hdigit
    rw [htwo, Option.none_or]
    exact nextNumber?_eq_some_iff.mpr ⟨ds, hlen, hd, rfl, rfl⟩
  · rw [twoDigits?_append ⟨hlen, hd⟩, Option.some_or]

theorem exists_groups_of_date {cs r : List Char} {d : DatePart}
    (h : DatePart.read? cs = some (some d, r)) :
    ∃ g : Groups YearWidth, cs = g.text '-' ++ r ∧ g.date = d := by
  unfold DatePart.read? at h
  split at h
  · cases h
  · rename_i hyear
    obtain ⟨ys, hlen, hdigits, rfl, rfl⟩ := nextNumber?_eq_some_iff.mp hyear
    split at h
    · cases h
      exact ⟨⟨ys, [], hlen, hdigits, by simp, by simp⟩, by simp [Groups.text], rfl⟩
    · rename_i hmonths
      rw [after?_eq_some_iff.mp hmonths]
      obtain ⟨⟨m, _⟩, hmonth, hrest⟩ := Option.bind_eq_some_iff.mp h
      obtain ⟨ms, hms, rfl, rfl⟩ := twoDigits?_eq_some_iff.mp hmonth
      dsimp only at hrest
      split at hrest
      · cases hrest
        exact ⟨⟨ys, [ms], hlen, hdigits, by simp [hms], by simp⟩, by simp [Groups.text], rfl⟩
      · rename_i hdays
        rw [after?_eq_some_iff.mp hdays]
        obtain ⟨⟨n, _⟩, hday, hlast⟩ := Option.bind_eq_some_iff.mp hrest
        obtain ⟨ds, hds, rfl, rfl⟩ := twoDigits?_eq_some_iff.mp hday
        cases hlast
        exact ⟨⟨ys, [ms, ds], hlen, hdigits, by simp [hms, hds], by simp⟩, by simp [Groups.text],
          rfl⟩

theorem exists_groups_of_time {cs : List Char} {time? : Option TimePart} (hne : cs ≠ [])
    (h : TimePart.read? cs = some time?) :
    ∃ g : Groups HourWidth, g.text ':' = cs ∧ some g.time = time? := by
  rw [TimePart.read?_of_ne_nil hne] at h
  obtain ⟨⟨n, _⟩, hhour, hrest⟩ := Option.bind_eq_some_iff.mp h
  obtain ⟨hs, hw, hdigits, rfl, rfl⟩ := exists_digits_of_hourDigits? hhour
  dsimp only at hrest
  split at hrest
  · obtain ⟨hempty, ht⟩ := Option.ite_none_right_eq_some.mp hrest
    cases ht
    rw [List.isEmpty_iff.mp hempty]
    exact ⟨⟨hs, [], hw, hdigits, by simp, by simp⟩, by simp [Groups.text], rfl⟩
  · rename_i hminutes
    rw [after?_eq_some_iff.mp hminutes]
    obtain ⟨⟨m, _⟩, hminute, hlater⟩ := Option.bind_eq_some_iff.mp hrest
    obtain ⟨ms, hms, rfl, rfl⟩ := twoDigits?_eq_some_iff.mp hminute
    dsimp only at hlater
    split at hlater
    · obtain ⟨hempty, ht⟩ := Option.ite_none_right_eq_some.mp hlater
      cases ht
      rw [List.isEmpty_iff.mp hempty]
      exact ⟨⟨hs, [ms], hw, hdigits, by simp [hms], by simp⟩, by simp [Groups.text], rfl⟩
    · rename_i hseconds
      rw [after?_eq_some_iff.mp hseconds]
      obtain ⟨⟨s, _⟩, hsecond, hlast⟩ := Option.bind_eq_some_iff.mp hlater
      obtain ⟨ss, hss, rfl, rfl⟩ := twoDigits?_eq_some_iff.mp hsecond
      dsimp only at hlast
      obtain ⟨hempty, ht⟩ := Option.ite_none_right_eq_some.mp hlast
      cases ht
      rw [List.isEmpty_iff.mp hempty]
      exact ⟨⟨hs, [ms, ss], hw, hdigits, by simp [hms, hss], by simp⟩, by simp [Groups.text], rfl⟩

namespace Groups

variable {Width : Nat → Prop}

/-- The three shapes of numbers in a row. -/
theorem further_cases (g : Groups Width) :
    g.further = [] ∨ (∃ ms, g.further = [ms] ∧ IsPair ms) ∨
      ∃ ms ds, g.further = [ms, ds] ∧ IsPair ms ∧ IsPair ds := by
  have hpairs := g.pairs
  have hfew := g.few
  match hfurther : g.further with
  | [] => exact Or.inl rfl
  | [ms] =>
    rw [hfurther] at hpairs
    exact Or.inr (Or.inl ⟨ms, rfl, hpairs ms (by simp)⟩)
  | [ms, ds] =>
    rw [hfurther] at hpairs
    exact Or.inr (Or.inr ⟨ms, ds, rfl, hpairs ms (by simp), hpairs ds (by simp)⟩)
  | _ :: _ :: _ :: _ =>
    rw [hfurther] at hfew
    simp at hfew

/-- A date is read off a text that does not go on with a hyphen. -/
theorem read?_date (g : Groups YearWidth) {r : List Char} (hr : r.head? ≠ some '-') :
    DatePart.read? (g.text '-' ++ r) = some (some g.date, r) := by
  have hstop := after?_eq_none_iff.mpr hr
  have hyear : ∀ r, fourDigits? (g.first ++ r) = some (digitsValue g.first, r) :=
    fun r => nextNumber?_eq_some_iff.mpr ⟨g.first, g.width, g.digits, rfl, rfl⟩
  unfold text date DatePart.read?
  rw [List.append_assoc, hyear]
  rcases g.further_cases with h | ⟨ms, h, hms⟩ | ⟨ms, ds, h, hms, hds⟩
  · simp [h, hstop]
  · simp [h, twoDigits?_append hms, hstop]
  · simp [h, twoDigits?_append hms, twoDigits?_append hds]

@[simp] theorem read?_time (g : Groups HourWidth) :
    TimePart.read? (g.text ':') = some (some g.time) := by
  obtain ⟨c, cs, hcons, -⟩ := g.exists_text_eq_cons ':'
  have hlast : ∀ {ds : List Char}, IsPair ds → twoDigits? ds = some (digitsValue ds, []) := by
    intro ds hds
    have := twoDigits?_append hds []
    rwa [List.append_nil] at this
  have hstop : ∀ c, (g.further.flatMap (':' :: ·)).head? = some c → isDigit c = false := by
    intro c hc
    cases hfurther : g.further with
    | nil =>
      rw [hfurther] at hc
      cases hc
    | cons ds further =>
      rw [hfurther] at hc
      cases hc
      decide
  rw [TimePart.read?_of_ne_nil (by simp [hcons]), text, hourDigits?_append g.width g.digits hstop,
    time]
  rcases g.further_cases with h | ⟨ms, h, hms⟩ | ⟨ms, ds, h, hms, hds⟩
  · simp [h, after?]
  · simp [h, hlast hms, after?]
  · simp [h, twoDigits?_append hms, hlast hds]

end Groups

namespace Split

@[simp] theorem read?_timeText (s : Split) :
    TimePart.read? s.timeText = some (s.time?.map Groups.time) := by
  unfold timeText
  cases s.time? with
  | none => rfl
  | some g => exact g.read?_time

@[simp] theorem getD_after?_rest (s : Split) : (after? ' ' s.rest).getD s.rest = s.timeText := by
  unfold rest
  split
  · rw [after?_cons, Option.getD_some]
  · rw [after?_eq_none_iff.mpr (s.head?_timeText (by decide)), Option.getD_none]

@[simp] theorem read?_text (s : Split) : read? s.text = some s.literal := by
  have hdate : DatePart.read? s.text = some (s.date?.map Groups.date, s.rest) := by
    cases hd : s.date? with
    | none =>
      have hfour : fourDigits? s.rest = none := by
        rw [← Option.not_isSome_iff_eq_none]
        exact fun h => s.not_beginsWithDigits_rest (nextNumber?_isSome_iff.mp h)
      rw [text_of_dateless hd, DatePart.read?, hfour]
      rfl
    | some g =>
      rw [text_of_dated hd]
      exact g.read?_date s.head?_rest
  exact read?_eq_some_iff.mpr ⟨s.rest, hdate, by rw [getD_after?_rest, read?_timeText, literal]⟩

end Split

theorem exists_timeText_of_read? {cs : List Char} {time? : Option TimePart}
    (h : TimePart.read? cs = some time?) :
    ∃ t? : Option (Groups HourWidth), (t?.map (Groups.text ':')).getD [] = cs ∧
      t?.map Groups.time = time? := by
  by_cases hne : cs = []
  · rw [hne] at h
    cases h
    exact ⟨none, hne.symm, rfl⟩
  · obtain ⟨g, hg, ht⟩ := exists_groups_of_time hne h
    exact ⟨some g, hg, ht⟩

/-- A literal is read off a text just when the text can be cut into its numbers. -/
theorem read?_eq_some_iff_split {cs : List Char} {l : Literal} :
    read? cs = some l ↔ ∃ s : Split, s.text = cs ∧ s.literal = l := by
  constructor
  · intro h
    obtain ⟨rest, hdate, htime⟩ := read?_eq_some_iff.mp h
    obtain ⟨t?, htext, ht⟩ := exists_timeText_of_read? htime
    obtain ⟨space, hrest⟩ : ∃ space : Bool, rest = if space then
        ' ' :: (t?.map (Groups.text ':')).getD [] else (t?.map (Groups.text ':')).getD [] := by
      cases hafter : after? ' ' rest with
      | none =>
        rw [hafter, Option.getD_none] at htext
        exact ⟨false, htext.symm⟩
      | some r =>
        rw [hafter, Option.getD_some] at htext
        refine ⟨true, ?_⟩
        rw [htext]
        exact after?_eq_some_iff.mp hafter
    obtain ⟨d?, hd, hcs⟩ : ∃ d? : Option (Groups YearWidth), d?.map Groups.date = l.date? ∧
        (d?.map (Groups.text '-')).getD [] ++ rest = cs := by
      cases hd : l.date? with
      | none =>
        rw [hd] at hdate
        rcases DatePart.read?_cases hdate with ⟨-, -, rfl⟩ | ⟨d, _, -, hd⟩
        · exact ⟨none, rfl, rfl⟩
        · cases hd
      | some d =>
        rw [hd] at hdate
        obtain ⟨g, rfl, rfl⟩ := exists_groups_of_date hdate
        exact ⟨some g, rfl, rfl⟩
    refine ⟨⟨d?, space, t?⟩, ?_, ?_⟩
    · rw [← hcs, hrest]
      rfl
    · rw [Split.literal, hd, ht]
  · rintro ⟨s, rfl, rfl⟩
    exact s.read?_text

end Timespan.Literal
