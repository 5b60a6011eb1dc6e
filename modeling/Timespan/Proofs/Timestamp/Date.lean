/-
  The grammar of dates. A text starts with a date just when it starts with one of the six ways to
  write one (`Timestamp.IsDate`); what follows is left as it is, and the date does not depend on it
  as long as it starts with neither a digit nor a hyphen (`exists_isDate_of_date?`,
  `IsDate.date?_append`).
-/
import Timespan.Proofs.Calendar.Order
import Timespan.Proofs.Text.Decimal
import Timespan.Timestamp.Read

namespace Timespan.Timestamp

open Timespan.Calendar Timespan.Text

/-! ## Numbers -/

/-- A run of `n` ASCII digits that denotes `k`. -/
structure Digits (n k : Nat) (ds : List Char) : Prop where
  length : ds.length = n
  digit : ∀ c ∈ ds, c.isDigit = true
  value : digitsValue ds = k

variable {n k : Nat} {c : Char} {cs ds rest : List Char}

theorem asciiDigit?_of_isDigit (h : c.isDigit = true) : asciiDigit? c = digit? c := by
  rw [asciiDigit?, if_pos h, digit?_of_isDigit h]
  rfl

theorem isDigit_of_asciiDigit? {d : Nat} (h : asciiDigit? c = some d) : c.isDigit = true := by
  rw [asciiDigit?] at h
  split at h
  · assumption
  · cases h

theorem nextDigits?_congr {value? value?' : Char → Option Nat} {xs : List Char}
    (h : ∀ c ∈ xs, value? c = value?' c) (rest : List Char) :
    nextDigits? value? xs.length (xs ++ rest) = nextDigits? value?' xs.length (xs ++ rest) := by
  induction xs with
  | nil => rfl
  | cons c xs ih =>
    obtain ⟨hc, hxs⟩ := List.forall_mem_cons.mp h
    simp only [List.length_cons, List.cons_append, nextDigits?, hc, ih hxs]

/-- Digits are read off as a number, whatever follows them. -/
theorem Digits.number?_append (h : Digits n k ds) (rest : List Char) :
    number? n (ds ++ rest) = some (k, rest) := by
  have hascii := nextDigits?_congr (fun c hc => asciiDigit?_of_isDigit (h.digit c hc)) rest
  rw [h.length] at hascii
  rw [number?, nextNumber?, hascii]
  exact nextNumber?_eq_some_iff.mpr
    ⟨ds, h.length, fun c hc => isDigit_of_ascii (h.digit c hc), rfl, h.value⟩

theorem exists_of_nextDigits? {vs : List Nat} (h : nextDigits? asciiDigit? n cs = some (vs, rest)) :
    ∃ ds, ds.length = n ∧ (∀ c ∈ ds, c.isDigit = true) ∧ cs = ds ++ rest := by
  induction n generalizing cs vs with
  | zero =>
    cases h
    exact ⟨[], rfl, by simp, rfl⟩
  | succ n ih =>
    cases cs with
    | nil => cases h
    | cons c cs =>
      simp only [nextDigits?, Option.bind_eq_bind, Option.bind_eq_some_iff, Option.pure_def,
        Option.some.injEq, Prod.mk.injEq] at h
      obtain ⟨d, hd, ⟨vs, _⟩, hread, rfl, rfl⟩ := h
      obtain ⟨ds, hlen, hdigit, rfl⟩ := ih hread
      exact ⟨c :: ds, congrArg (· + 1) hlen,
        List.forall_mem_cons.mpr ⟨isDigit_of_asciiDigit? hd, hdigit⟩, rfl⟩

theorem number?_eq_some_iff :
    number? n cs = some (k, rest) ↔ ∃ ds, Digits n k ds ∧ cs = ds ++ rest := by
  constructor
  · intro h
    obtain ⟨⟨vs, _⟩, hread, hpair⟩ := Option.map_eq_some_iff.mp h
    cases hpair
    obtain ⟨ds, hlen, hdigit, rfl⟩ := exists_of_nextDigits? hread
    have hds : Digits n (digitsValue ds) ds := ⟨hlen, hdigit, rfl⟩
    rw [hds.number?_append rest, Option.some.injEq, Prod.mk.injEq] at h
    exact ⟨ds, h.1 ▸ hds, rfl⟩
  · rintro ⟨ds, hds, rfl⟩
    exact hds.number?_append rest

theorem digits_padded {width : Nat} (h : n < Nat.pow 10 width) :
    Digits width n (padded width n) :=
  ⟨length_padded width n, fun _ => isDigit_of_mem_padded, digitsValue_padded h⟩

theorem Digits.exists_cons (h : Digits (n + 1) k ds) :
    ∃ c cs, ds = c :: cs ∧ c.isDigit = true := by
  obtain ⟨c, cs, rfl⟩ := List.exists_cons_of_length_eq_add_one h.length
  exact ⟨c, cs, rfl, h.digit c List.mem_cons_self⟩

theorem digits_singleton (h : asciiDigit? c = some k) : Digits 1 k [c] := by
  have hc := isDigit_of_asciiDigit? h
  refine ⟨rfl, by simpa using hc, ?_⟩
  rw [asciiDigit?_of_isDigit hc] at h
  simp [digitsValue, h, ofDigits]

theorem Digits.exists_singleton (h : Digits 1 k ds) : ∃ c, ds = [c] ∧ asciiDigit? c = some k := by
  obtain ⟨c, rfl⟩ := List.length_eq_one_iff.mp h.length
  have hc := h.digit c List.mem_cons_self
  obtain ⟨d, hd⟩ := Option.isSome_iff_exists.mp (isDigit_of_ascii hc)
  have hvalue := h.value
  rw [← asciiDigit?_of_isDigit hc] at hd
  rw [(digits_singleton hd).value] at hvalue
  exact ⟨c, rfl, hvalue ▸ hd⟩

/-! ## Dates as they are written -/

/-- The six ways to write a date: year, month and day, or year and week with or without the day of
    the week, each with hyphens or without. A week without a day stands for its Monday. -/
inductive IsDate : List Char → Int → Prop
  | dashed {year month day : Nat} {n : Int} {ys ms ds : List Char} (hy : Digits 4 year ys)
      (hm : Digits 2 month ms) (hd : Digits 2 day ds) (h : dateDay? year month day = some n) :
      IsDate (ys ++ '-' :: (ms ++ '-' :: ds)) n
  | compact {year month day : Nat} {n : Int} {ys ms ds : List Char} (hy : Digits 4 year ys)
      (hm : Digits 2 month ms) (hd : Digits 2 day ds) (h : dateDay? year month day = some n) :
      IsDate (ys ++ (ms ++ ds)) n
  | dashedWeek {year week : Nat} {n : Int} {ys ws : List Char} (hy : Digits 4 year ys)
      (hw : Digits 2 week ws) (h : weekDay? year week 1 = some n) :
      IsDate (ys ++ '-' :: 'W' :: ws) n
  | dashedWeekDay {year week day : Nat} {n : Int} {ys ws ds : List Char} (hy : Digits 4 year ys)
      (hw : Digits 2 week ws) (hd : Digits 1 day ds) (h : weekDay? year week day = some n) :
      IsDate (ys ++ '-' :: 'W' :: (ws ++ '-' :: ds)) n
  | compactWeek {year week : Nat} {n : Int} {ys ws : List Char} (hy : Digits 4 year ys)
      (hw : Digits 2 week ws) (h : weekDay? year week 1 = some n) :
      IsDate (ys ++ 'W' :: ws) n
  | compactWeekDay {year week day : Nat} {n : Int} {ys ws ds : List Char} (hy : Digits 4 year ys)
      (hw : Digits 2 week ws) (hd : Digits 1 day ds) (h : weekDay? year week day = some n) :
      IsDate (ys ++ 'W' :: (ws ++ ds)) n

theorem IsDate.digit_or {xs : List Char} {n : Int} (h : IsDate xs n) :
    ∀ c ∈ xs, c.isDigit = true ∨ c = '-' ∨ c = 'W' := by
  have hdigits : ∀ {m k : Nat} {ds : List Char}, Digits m k ds →
      ∀ c ∈ ds, c.isDigit = true ∨ c = '-' ∨ c = 'W' := fun h c hc => Or.inl (h.digit c hc)
  cases h with
  | dashed hy hm hd =>
    simp only [List.forall_mem_append, List.forall_mem_cons]
    exact ⟨hdigits hy, by decide, hdigits hm, by decide, hdigits hd⟩
  | compact hy hm hd =>
    simp only [List.forall_mem_append]
    exact ⟨hdigits hy, hdigits hm, hdigits hd⟩
  | dashedWeek hy hw =>
    simp only [List.forall_mem_append, List.forall_mem_cons]
    exact ⟨hdigits hy, by decide, by decide, hdigits hw⟩
  | dashedWeekDay hy hw hd =>
    simp only [List.forall_mem_append, List.forall_mem_cons]
    exact ⟨hdigits hy, by decide, by decide, hdigits hw, by decide, hdigits hd⟩
  | compactWeek hy hw =>
    simp only [List.forall_mem_append, List.forall_mem_cons]
    exact ⟨hdigits hy, by decide, hdigits hw⟩
  | compactWeekDay hy hw hd =>
    simp only [List.forall_mem_append, List.forall_mem_cons]
    exact ⟨hdigits hy, by decide, hdigits hw, hdigits hd⟩

/-! ## Dates that are read -/

section

variable {year month week day : Nat} {ys ms ws : List Char}

/-- A date with hyphens is read off, whatever follows it. -/
theorem date?_dashed (hy : Digits 4 year ys) (hm : Digits 2 month ms) (hd : Digits 2 day ds)
    (rest : List Char) :
    date? (ys ++ '-' :: (ms ++ '-' :: (ds ++ rest))) =
      (dateDay? year month day).map (·, rest) := by
  have hmonth := hm.number?_append ('-' :: (ds ++ rest))
  obtain ⟨c, cs, hc, hdigit⟩ := hm.exists_cons
  rw [hc, List.cons_append] at hmonth
  rw [date?, hy.number?_append, hc, List.cons_append]
  simp only [Option.bind_eq_bind, Option.bind_some]
  split
  · -- no week starts with a digit
    rename_i hcons
    obtain ⟨rfl, -⟩ := List.cons.inj (List.cons.inj hcons).2
    exact absurd hdigit (by decide)
  · rename_i hcons
    obtain rfl := (List.cons.inj hcons).2
    rw [hmonth]
    simp only [Option.bind_some, hd.number?_append]
    cases dateDay? year month day <;> rfl
  · rename_i hcons
    exact absurd (List.cons.inj hcons).1 (by decide)
  · rename_i hcons _
    exact absurd rfl (hcons _)

theorem date?_compact (hy : Digits 4 year ys) (hm : Digits 2 month ms) (hd : Digits 2 day ds)
    (rest : List Char) :
    date? (ys ++ (ms ++ (ds ++ rest))) = (dateDay? year month day).map (·, rest) := by
  have hmonth := hm.number?_append (ds ++ rest)
  obtain ⟨c, cs, hc, hdigit⟩ := hm.exists_cons
  rw [hc, List.cons_append] at hmonth
  rw [date?, hy.number?_append, hc, List.cons_append]
  simp only [Option.bind_eq_bind, Option.bind_some]
  split
  · rename_i hcons
    obtain ⟨rfl, -⟩ := List.cons.inj hcons
    exact absurd hdigit (by decide)
  · rename_i hcons
    obtain ⟨rfl, -⟩ := List.cons.inj hcons
    exact absurd hdigit (by decide)
  · rename_i hcons
    obtain ⟨rfl, -⟩ := List.cons.inj hcons
    exact absurd hdigit (by decide)
  · rw [hmonth]
    simp only [Option.bind_some, hd.number?_append]
    cases dateDay? year month day <;> rfl

/-- A text cannot go on a date: it starts with neither a digit nor a hyphen. -/
def EndsDate (rest : List Char) : Prop := ∀ c, rest.head? = some c → c.isDigit = false ∧ c ≠ '-'

theorem EndsDate.startsWithDigit (h : EndsDate rest) : startsWithDigit rest = false := by
  cases rest with
  | nil => rfl
  | cons c cs => exact (h c rfl).1

theorem EndsDate.takeWhile (h : EndsDate rest) : rest.takeWhile Char.isDigit = [] := by
  cases rest with
  | nil => rfl
  | cons c cs => rw [List.takeWhile_cons, (h c rfl).1]; rfl

theorem date?_dashedWeek (hy : Digits 4 year ys) (hw : Digits 2 week ws) (hrest : EndsDate rest) :
    date? (ys ++ '-' :: 'W' :: (ws ++ rest)) = (weekDay? year week 1).map (·, rest) := by
  rw [date?, hy.number?_append]
  simp only [Option.bind_eq_bind, Option.bind_some, hw.number?_append]
  split
  · exact absurd rfl (hrest '-' rfl).2
  · exact absurd rfl (hrest '-' rfl).2
  · cases weekDay? year week 1 <;> rfl

theorem date?_dashedWeekDay (hy : Digits 4 year ys) (hw : Digits 2 week ws)
    (hd : Digits 1 day ds) (hrest : EndsDate rest) :
    date? (ys ++ '-' :: 'W' :: (ws ++ '-' :: (ds ++ rest))) =
      (weekDay? year week day).map (·, rest) := by
  obtain ⟨c, rfl, hc⟩ := hd.exists_singleton
  rw [date?, hy.number?_append]
  simp only [Option.bind_eq_bind, Option.bind_some, hw.number?_append, List.cons_append,
    List.nil_append, hrest.startsWithDigit, Bool.false_eq_true, if_false, hc]
  cases weekDay? year week day <;> rfl

theorem date?_compactWeek (hy : Digits 4 year ys) (hw : Digits 2 week ws)
    (hrest : EndsDate rest) :
    date? (ys ++ 'W' :: (ws ++ rest)) = (weekDay? year week 1).map (·, rest) := by
  have hday : dayFollowsWeek rest = false := by
    simp [dayFollowsWeek, hrest.takeWhile]
  rw [date?, hy.number?_append]
  simp only [Option.bind_eq_bind, Option.bind_some, hw.number?_append, hday, Bool.false_eq_true,
    if_false]
  cases weekDay? year week 1 <;> rfl

theorem date?_compactWeekDay (hy : Digits 4 year ys) (hw : Digits 2 week ws)
    (hd : Digits 1 day ds) (hrest : EndsDate rest) :
    date? (ys ++ 'W' :: (ws ++ (ds ++ rest))) = (weekDay? year week day).map (·, rest) := by
  have hday : dayFollowsWeek (ds ++ rest) = true := by
    obtain ⟨c, rfl, hc⟩ := hd.exists_singleton
    simp [dayFollowsWeek, isDigit_of_asciiDigit? hc, hrest.takeWhile]
  rw [date?, hy.number?_append]
  simp only [Option.bind_eq_bind, Option.bind_some, hw.number?_append, hday, if_true,
    hd.number?_append]
  cases weekDay? year week day <;> rfl

end

/-- A date is read off a text in which nothing could go on with it. -/
theorem IsDate.date?_append {xs : List Char} {n : Int} (h : IsDate xs n) (hrest : EndsDate rest) :
    date? (xs ++ rest) = some (n, rest) := by
  cases h with
  | dashed hy hm hd h =>
    simp only [List.append_assoc, List.cons_append, date?_dashed hy hm hd, h, Option.map_some]
  | compact hy hm hd h =>
    simp only [List.append_assoc, date?_compact hy hm hd, h, Option.map_some]
  | dashedWeek hy hw h =>
    simp only [List.append_assoc, List.cons_append, date?_dashedWeek hy hw hrest, h,
      Option.map_some]
  | dashedWeekDay hy hw hd h =>
    simp only [List.append_assoc, List.cons_append, date?_dashedWeekDay hy hw hd hrest, h,
      Option.map_some]
  | compactWeek hy hw h =>
    simp only [List.append_assoc, List.cons_append, date?_compactWeek hy hw hrest, h,
      Option.map_some]
  | compactWeekDay hy hw hd h =>
    simp only [List.append_assoc, List.cons_append, date?_compactWeekDay hy hw hd hrest, h,
      Option.map_some]

theorem exists_digits_of_bind {α : Type} {f : Nat × List Char → Option α} {a : α}
    (h : (number? n cs >>= f) = some a) :
    ∃ k ds rest, Digits n k ds ∧ cs = ds ++ rest ∧ f (k, rest) = some a := by
  obtain ⟨⟨k, rest⟩, hread, hf⟩ := Option.bind_eq_some_iff.mp h
  obtain ⟨ds, hds, rfl⟩ := number?_eq_some_iff.mp hread
  exact ⟨k, ds, rest, hds, rfl, hf⟩

theorem eq_of_bind_pure {m? : Option Int} {n : Int} {rest' : List Char}
    (h : (do return (← m?, rest)) = some (n, rest')) : m? = some n ∧ rest = rest' := by
  cases m? with
  | none => cases h
  | some m =>
    cases h
    exact ⟨rfl, rfl⟩

/-- What is read off as a date is one. -/
theorem exists_isDate_of_date? {n : Int} (h : date? cs = some (n, rest)) :
    ∃ xs, IsDate xs n ∧ cs = xs ++ rest := by
  rw [date?] at h
  obtain ⟨year, ys, rest₁, hy, rfl, h₁⟩ := exists_digits_of_bind h
  clear h
  dsimp only at h₁
  split at h₁
  · -- a week with hyphens, and a day behind it unless that is an hour
    obtain ⟨week, ws, rest₂, hw, rfl, h₂⟩ := exists_digits_of_bind h₁
    dsimp only at h₂
    split at h₂
    · cases h₂
    · split at h₂
      · obtain ⟨hn, rfl⟩ := eq_of_bind_pure h₂
        exact ⟨_, .dashedWeek hy hw hn, by simp⟩
      · obtain ⟨day, hd, h₃⟩ := Option.bind_eq_some_iff.mp h₂
        obtain ⟨hn, rfl⟩ := eq_of_bind_pure h₃
        exact ⟨_, .dashedWeekDay hy hw (digits_singleton hd) hn, by simp⟩
    · obtain ⟨hn, rfl⟩ := eq_of_bind_pure h₂
      exact ⟨_, .dashedWeek hy hw hn, by simp⟩
  · obtain ⟨month, ms, rest₂, hm, rfl, h₂⟩ := exists_digits_of_bind h₁
    dsimp only at h₂
    split at h₂
    · obtain ⟨day, ds, rest₃, hd, rfl, h₃⟩ := exists_digits_of_bind h₂
      obtain ⟨hn, rfl⟩ := eq_of_bind_pure h₃
      exact ⟨_, .dashed hy hm hd hn, by simp⟩
    · cases h₂
  · obtain ⟨week, ws, rest₂, hw, rfl, h₂⟩ := exists_digits_of_bind h₁
    dsimp only at h₂
    split at h₂
    · obtain ⟨day, ds, rest₃, hd, rfl, h₃⟩ := exists_digits_of_bind h₂
      obtain ⟨hn, rfl⟩ := eq_of_bind_pure h₃
      exact ⟨_, .compactWeekDay hy hw hd hn, by simp⟩
    · obtain ⟨hn, rfl⟩ := eq_of_bind_pure h₂
      exact ⟨_, .compactWeek hy hw hn, by simp⟩
  · obtain ⟨month, ms, rest₂, hm, rfl, h₂⟩ := exists_digits_of_bind h₁
    obtain ⟨day, ds, rest₃, hd, rfl, h₃⟩ := exists_digits_of_bind h₂
    obtain ⟨hn, rfl⟩ := eq_of_bind_pure h₃
    exact ⟨_, .compact hy hm hd hn, by simp⟩

theorem isDate_iff {n : Int} : IsDate cs n ↔ date? cs = some (n, []) := by
  constructor
  · intro h
    have hread := h.date?_append (show EndsDate [] from nofun)
    rwa [List.append_nil] at hread
  · intro h
    obtain ⟨xs, hxs, rfl⟩ := exists_isDate_of_date? h
    rwa [List.append_nil]

theorem dateDay?_eq {v : Fields} (h : v.Canonical) :
    dateDay? v.year.toNat v.month.toNat v.day.toNat = some v.date.dayNumber := by
  obtain ⟨hm : 1 ≤ v.month ∧ v.month ≤ 12, hd : 1 ≤ v.day ∧ _⟩ := h.valid.date
  have hyear : (v.year.toNat : Int) = v.year := Int.toNat_of_nonneg (by have := h.year; omega)
  have hmonth : (v.month.toNat : Int) = v.month := Int.toNat_of_nonneg (by omega)
  have hday : (v.day.toNat : Int) = v.day := Int.toNat_of_nonneg (by omega)
  have hfault : (Fields.mk v.year v.month v.day 0 0 0 0).fault? = none :=
    Fields.fault?_eq_none_iff.mpr ⟨h.year, hm, hd, by simp, by simp, by simp⟩
  rw [dateDay?, hyear, hmonth, hday, hfault]
  rfl

end Timespan.Timestamp
