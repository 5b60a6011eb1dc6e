/-
  The parts of a timestamp behind its date read back as they are written: a time of day with colons
  and a fraction of three digits or more, and an offset behind the sign that ends the time.
-/
import Mathlib.Data.List.TakeWhile
import Timespan.Proofs.Timestamp.Date

namespace Timespan

open Timespan.Calendar Timespan.Text

namespace Timestamp

/-! ## Times of day -/

theorem exists_padded_cons (width n : Nat) :
    ∃ c cs, padded (width + 1) n = c :: cs ∧ c.isDigit = true := by
  obtain ⟨c, cs, h⟩ := List.exists_cons_of_ne_nil (l := padded (width + 1) n) (by simp [padded])
  exact ⟨c, cs, h, isDigit_of_mem_padded (h ▸ List.mem_cons_self)⟩

/-- Two digits, after a colon where the fields of a time are separated. -/
def field (separated : Bool) (n : Nat) : List Char :=
  (if separated then [':'] else []) ++ padded 2 n

variable {separated : Bool} {n k : Nat} {cs rest : List Char}

theorem continuation?_field (separated : Bool) (k : Nat) (rest : List Char) :
    continuation? separated (field separated k ++ rest) = some (.field (padded 2 k ++ rest)) := by
  obtain ⟨c, cs, hc, hdigit⟩ := exists_padded_cons 1 k
  obtain ⟨d, ds, hd⟩ : ∃ d ds, cs ++ rest = d :: ds := by
    have hlen := congrArg List.length hc
    rw [length_padded, List.length_cons] at hlen
    exact List.exists_cons_of_ne_nil (List.append_ne_nil_of_left_ne_nil
      (List.ne_nil_of_length_pos (by omega)) rest)
  have hmark : c ≠ '.' ∧ c ≠ ',' := by
    constructor <;> (rintro rfl; exact absurd hdigit (by decide))
  cases separated <;> simp [field, hc, hd, continuation?, hmark]

theorem furtherFields?_field (hk : k < Nat.pow 10 2) (rest : List Char) :
    furtherFields? separated (n + 1) (field separated k ++ rest) =
      (furtherFields? separated n rest).map fun (values, left) => (k :: values, left) := by
  rw [furtherFields?, continuation?_field]
  simp only [Option.bind_eq_bind, Option.bind_some, (digits_padded hk).number?_append]
  cases furtherFields? separated n rest <;> rfl

/-- A point or a comma ends the fields. -/
theorem furtherFields?_fraction {mark : Char} (hmark : mark = '.' ∨ mark = ',')
    (hne : cs ≠ []) :
    furtherFields? separated n (mark :: cs) =
      (fraction? cs).map fun (micro, left) => ([], micro, left) := by
  obtain ⟨c, cs, rfl⟩ := List.exists_cons_of_ne_nil hne
  have hcontinuation : continuation? separated (mark :: c :: cs) = some (.fraction (c :: cs)) := by
    rcases hmark with rfl | rfl <;> cases separated <;> rfl
  rw [furtherFields?.eq_def, hcontinuation]
  simp only [Option.bind_eq_bind, Option.bind_some]
  cases fraction? (c :: cs) <;> rfl

/-- A run of digits is a fraction, and nothing is left of it. -/
theorem fraction?_digits (h : ∀ c ∈ cs, c.isDigit = true) (hne : cs ≠ []) :
    fraction? cs = some (digitsValue ((cs.take 6 ++ List.replicate 6 '0').take 6), []) := by
  have hall : (cs.take 6).all Char.isDigit = true :=
    List.all_eq_true.mpr fun c hc => h c (List.mem_of_mem_take hc)
  have hempty : (cs.take 6).isEmpty = false := by
    obtain ⟨c, cs, rfl⟩ := List.exists_cons_of_ne_nil hne
    rfl
  have hover : (cs.drop 6).dropWhile Char.isDigit = [] := by
    rw [← List.append_nil (cs.drop 6),
      List.dropWhile_append_of_pos fun c hc => h c (List.mem_of_mem_drop hc)]
    rfl
  simp only [fraction?, hall, hempty, hover, Bool.not_true, Bool.or_self, Bool.false_eq_true,
    if_false]

/-- Three digits with more behind them, cut or filled up to six, are these three and three more. -/
theorem exists_filled {xs : List Char} (hxs : xs.length = 3) (h : ∀ c ∈ cs, c.isDigit = true) :
    ∃ tail, ((xs ++ cs).take 6 ++ List.replicate 6 '0').take 6 = xs ++ tail ∧ tail.length = 3 ∧
      ∀ c ∈ tail, c.isDigit = true := by
  refine ⟨(cs.take 3 ++ List.replicate 6 '0').take 3, ?_, by simp, ?_⟩
  · have hsix : (xs ++ cs).take 6 = xs ++ cs.take 3 := by
      rw [List.take_append, hxs, List.take_of_length_le (by omega)]
    rw [hsix, List.append_assoc, List.take_append, hxs, List.take_of_length_le (by omega)]
  · intro c hc
    rcases List.mem_append.mp (List.mem_of_mem_take hc) with hc | hc
    · exact h c (List.mem_of_mem_take hc)
    · rw [List.eq_of_mem_replicate hc]
      decide

/-- A fraction that starts with three digits lies in the millisecond that they name. -/
theorem exists_fraction?_millis {ms : Nat} (h : ms < Nat.pow 10 3)
    (hcs : ∀ c ∈ cs, c.isDigit = true) :
    ∃ micro, fraction? (padded 3 ms ++ cs) = some (micro, []) ∧ micro / 1000 = ms := by
  have hpadded : ∀ c ∈ padded 3 ms, c.isDigit = true := fun c => isDigit_of_mem_padded
  have hdigits : ∀ c ∈ padded 3 ms ++ cs, c.isDigit = true := fun c hc =>
    (List.mem_append.mp hc).elim (hpadded c) (hcs c)
  obtain ⟨tail, hfilled, hlength, htail⟩ := exists_filled (length_padded 3 ms) hcs
  have hthousand : Nat.pow 10 tail.length = 1000 := by
    rw [hlength]
  -- what the digits after the third add is less than a millisecond
  have hlt := digitsValue_lt tail
  have hvalue := digitsValue_append hpadded htail
  rw [hthousand] at hlt
  rw [hthousand, digitsValue_padded h] at hvalue
  refine ⟨1000 * ms + digitsValue tail, ?_, by omega⟩
  rw [fraction?_digits hdigits (by simp [padded]), hfilled, hvalue]

/-- Hours and minutes are read back, and the text goes on as they do: with colons or without. -/
theorem reading?_fields {hour minute : Nat} (hh : hour < Nat.pow 10 2) (hm : minute < Nat.pow 10 2)
    (separated : Bool) (cs : List Char) :
    Reading.read? (padded 2 hour ++ (field separated minute ++ cs)) =
      (furtherFields? separated 1 cs).map fun (values, micro, left) =>
        (⟨hour, minute, values.getD 0 0, micro⟩, left) := by
  have hseparated : decide ((field separated minute ++ cs).head? = some ':') = separated := by
    cases separated with
    | true => rfl
    | false =>
      obtain ⟨c, ds, hc, hdigit⟩ := exists_padded_cons 1 minute
      have hcolon : c ≠ ':' := by
        rintro rfl
        exact absurd hdigit (by decide)
      simp [field, hc, hcolon]
  rw [Reading.read?, (digits_padded hh).number?_append]
  simp only [Option.bind_eq_bind, Option.bind_some, hseparated, furtherFields?_field hm]
  cases furtherFields? separated 1 cs <;> rfl

/-- A time of day with a fraction is read back, as far as the fraction is. -/
theorem reading?_clock {hour minute second : Nat} {mark : Char} (hh : hour < Nat.pow 10 2)
    (hm : minute < Nat.pow 10 2) (hs : second < Nat.pow 10 2) (hmark : mark = '.' ∨ mark = ',')
    (hne : cs ≠ []) (separated : Bool) :
    Reading.read? (padded 2 hour ++ (field separated minute ++ (field separated second ++
        mark :: cs))) =
      (fraction? cs).map fun (micro, left) => (⟨hour, minute, second, micro⟩, left) := by
  rw [reading?_fields hh hm, furtherFields?_field hs, furtherFields?_fraction hmark hne]
  cases fraction? cs <;> rfl

/-- Whole seconds are read back to the end of the text; seconds of zero need not be written. -/
theorem reading?_whole {hour minute second : Nat} (hh : hour < Nat.pow 10 2)
    (hm : minute < Nat.pow 10 2) (hs : second < Nat.pow 10 2) (separated : Bool) :
    Reading.read? (padded 2 hour ++ (field separated minute ++
        if second = 0 then [] else field separated second)) =
      some (⟨hour, minute, second, 0⟩, []) := by
  have hover : ∀ n, furtherFields? separated n [] = some ([], 0, []) := by
    intro n
    rw [furtherFields?.eq_def]
    rfl
  rw [reading?_fields hh hm]
  split
  · rename_i hzero
    rw [hover, hzero]
    rfl
  · rw [← List.append_nil (field separated second), furtherFields?_field hs, hover]
    rfl

/-- A time without a sign in it has no offset, and it goes to the end of the text. -/
theorem timeOfDay?_unsigned (h : ∀ c ∈ cs, c ≠ '+' ∧ c ≠ '-') :
    timeOfDay? cs = (Reading.read? cs).bind fun (r, left) =>
      if r.isValid && isOver left then some (r, none) else none := by
  have htime : ∀ c ∈ cs, (!(c == '+' || c == '-')) = true := by
    intro c hc
    simp [h c hc]
  have htake : cs.takeWhile (fun c => !(c == '+' || c == '-')) = cs :=
    List.takeWhile_eq_self_iff.mpr htime
  have hdrop : cs.dropWhile (fun c => !(c == '+' || c == '-')) = [] :=
    List.dropWhile_eq_nil_iff.mpr htime
  rw [timeOfDay?]
  simp only [htake, hdrop]
  cases Reading.read? cs with
  | none => rfl
  | some p =>
    obtain ⟨r, left⟩ := p
    cases hr : r.isValid <;> cases hover : isOver left <;> simp [hr, hover]

/-- The offset of a time starts at the first sign. -/
theorem timeOfDay?_signed {sign : Char} (h : ∀ c ∈ cs, c ≠ '+' ∧ c ≠ '-')
    (hsign : sign = '+' ∨ sign = '-') :
    timeOfDay? (cs ++ sign :: rest) =
      (Reading.read? cs).bind fun (r, _) =>
        if r.isValid then (signedOffset? sign rest).map (r, some ·) else none := by
  have htime : ∀ c ∈ cs, (!(c == '+' || c == '-')) = true := by
    intro c hc
    simp [h c hc]
  have hstop : (!(sign == '+' || sign == '-')) = false := by
    rcases hsign with rfl | rfl <;> rfl
  rw [timeOfDay?]
  simp only [List.takeWhile_append_of_pos htime, List.dropWhile_append_of_pos htime,
    List.takeWhile_cons, List.dropWhile_cons, hstop, Bool.false_eq_true, if_false, List.append_nil]
  cases Reading.read? cs with
  | none => rfl
  | some p =>
    obtain ⟨r, left⟩ := p
    cases hr : r.isValid <;> cases signedOffset? sign rest <;> simp [hr]

/-! ## Timestamps -/

/-- The offset of UTC, behind its sign. -/
def zeroOffset : List Char := ['0', '0', ':', '0', '0']

@[simp] theorem signedOffset?_zeroOffset : signedOffset? '+' zeroOffset = some 0 := by
  decide +kernel

/-- A text without a Z stands for itself. -/
theorem expandZulu_of_not_mem (h : ∀ c ∈ cs, c ≠ 'Z') : expandZulu cs = cs := by
  induction cs with
  | nil => rfl
  | cons c cs ih =>
    obtain ⟨hc, hcs⟩ := List.forall_mem_cons.mp h
    rw [expandZulu, List.flatMap_cons, if_neg hc]
    exact congrArg (c :: ·) (ih hcs)

@[simp] theorem expandZulu_append (cs ds : List Char) :
    expandZulu (cs ++ ds) = expandZulu cs ++ expandZulu ds :=
  List.flatMap_append

theorem expandZulu_zulu (cs : List Char) :
    expandZulu (cs ++ ['Z']) = expandZulu cs ++ '+' :: zeroOffset :=
  expandZulu_append cs ['Z']

/-- A Z at the end is read as the offset of UTC. -/
theorem read?_zulu (cs : List Char) : read? (cs ++ ['Z']) = read? (cs ++ '+' :: zeroOffset) := by
  have hzero : expandZulu ('+' :: zeroOffset) = '+' :: zeroOffset := by decide
  rw [read?, read?, expandZulu_zulu, expandZulu_append, hzero]

end Timestamp

/-! ## Instants -/

/-- What is wrong with a text whose wall time names no instant on the host's clock. -/
def InstantFault.ofSearch : SearchFault → InstantFault
  | .shownOutside => .malformed
  | .foundOutside => .outsideCalendar

/-- Does a text look like a number? After any hyphens it has nothing but digits and what looks like
    digits. -/
def LooksNumeric (cs : List Char) : Prop :=
  (trim cs).dropWhile (· == '-') ≠ [] ∧
    ∀ c ∈ (trim cs).dropWhile (· == '-'), isDigitLike c = true

theorem not_looksNumeric_of_mem {cs : List Char} {c : Char} (h : c ∈ trim cs) (hdash : c ≠ '-')
    (hc : isDigitLike c = false) : ¬ LooksNumeric cs := by
  rintro ⟨-, hall⟩
  rw [← List.takeWhile_append_dropWhile (p := (· == '-')) (l := trim cs), List.mem_append] at h
  rcases h with h | h
  · have heq := List.mem_takeWhile_imp h
    exact hdash (beq_iff_eq.mp heq)
  · exact absurd (hall c h) (by simp [hc])

/-- What looks like a number is read as one or not at all. -/
theorem readInstant_of_looksNumeric (host : Zone) {cs : List Char} (h : LooksNumeric cs) :
    readInstant host cs =
      match integer? (trim cs) with
      | some n => .ok n
      | none => .error .malformed := by
  obtain ⟨hne, hall⟩ := h
  have hdigits : (!((trim cs).dropWhile (· == '-')).isEmpty &&
      ((trim cs).dropWhile (· == '-')).all isDigitLike) = true := by
    rw [List.isEmpty_eq_false_iff.mpr hne, List.all_eq_true.mpr hall]
    rfl
  exact if_pos hdigits

/-- What does not is a timestamp. -/
theorem readInstant_of_not_looksNumeric (host : Zone) {cs : List Char} (h : ¬ LooksNumeric cs) :
    readInstant host cs =
      match Timestamp.read? (trim cs) with
      | none => .error .malformed
      | some s => (s.instant host).mapError InstantFault.ofSearch := by
  have hdigits : (!((trim cs).dropWhile (· == '-')).isEmpty &&
      ((trim cs).dropWhile (· == '-')).all isDigitLike) = false := by
    rw [← Bool.not_eq_true, Bool.and_eq_true, Bool.not_eq_true', List.isEmpty_eq_false_iff,
      List.all_eq_true]
    exact h
  unfold readInstant
  simp only [hdigits, Bool.false_eq_true, if_false]
  cases Timestamp.read? (trim cs) with
  | none => rfl
  | some s =>
    dsimp only
    rcases s.instant host with (_ | _) | t <;> rfl

/-- A text with a Z in it is no number. -/
theorem readInstant_of_zulu_mem (host : Zone) {cs : List Char} (h : 'Z' ∈ trim cs) :
    readInstant host cs =
      match Timestamp.read? (trim cs) with
      | none => .error .malformed
      | some s => (s.instant host).mapError InstantFault.ofSearch :=
  readInstant_of_not_looksNumeric host (not_looksNumeric_of_mem h (by decide) (by decide))

end Timespan
