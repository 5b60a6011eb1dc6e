/-
  Instants through text and back. Every instant of the calendar is written, reads back as itself
  whatever the host's zone is, and stands among the others in the order of the texts; a plain
  number is the instant that it counts (`readInstant_text`).
-/
import Mathlib.Data.String.Basic
import Timespan.Proofs.Timestamp.Written

namespace Timespan

open Timespan.Calendar Timespan.Text

variable {host : Zone} {v w : Fields} {n t t' : Int} {text text' : String}

/-! ## The text of fields -/

theorem isoText_append (v : Fields) (rest : List Char) :
    isoText v ++ rest = padded 4 v.year.toNat ++ '-' :: (padded 2 v.month.toNat ++
      '-' :: (padded 2 v.day.toNat ++ 'T' :: (padded 2 v.hour.toNat ++
        ':' :: (padded 2 v.minute.toNat ++ ':' :: (padded 2 v.second.toNat ++
          '.' :: (padded 3 v.milli.toNat ++ rest)))))) := by
  simp [isoText]

theorem isoText_eq (v : Fields) : isoText v = Timestamp.Style.extended.text v [] none := by
  simp [isoText, Timestamp.Style.text, Timestamp.Style.dateText, Timestamp.Style.clockText,
    Timestamp.Style.offsetText, Timestamp.Style.extended, Timestamp.field]

theorem isoText_zeroOffset (v : Fields) :
    isoText v ++ '+' :: Timestamp.zeroOffset =
      Timestamp.Style.extended.text v [] (some 0) := by
  have hoffset : Timestamp.Style.extended.offsetText (some 0) = '+' :: Timestamp.zeroOffset := by
    decide
  rw [isoText_eq, Timestamp.Style.text, Timestamp.Style.text, hoffset, Timestamp.Style.offsetText]
  simp

/-! ## The order of texts -/

/-- Texts of fields in range compare as the wall times that the fields denote. -/
theorem isoText_append_lt_iff (hv : v.Canonical) (hw : w.Canonical) (rest : List Char) :
    isoText v ++ rest < isoText w ++ rest ↔ v.rolled < w.rolled := by
  obtain ⟨hy, hm, hd, hh, hmin, hs, hms⟩ := hv.widths
  obtain ⟨hy', hm', hd', hh', hmin', hs', hms'⟩ := hw.widths
  have hsame : ∀ (c : Char) (as bs : List Char), c :: as < c :: bs ↔ as < bs := fun c as bs => by
    simp
  rw [Fields.rolled_lt_iff hv.valid hw.valid, isoText_append, isoText_append,
    padded_append_lt_iff hy hy', hsame, padded_append_lt_iff hm hm', hsame,
    padded_append_lt_iff hd hd', hsame, padded_append_lt_iff hh hh', hsame,
    padded_append_lt_iff hmin hmin', hsame, padded_append_lt_iff hs hs', hsame,
    padded_append_lt_iff hms hms']
  simp only [Fields.toList, List.cons_lt_cons_iff, and_false, or_false, List.lt_irrefl]

/-! ## Reading back -/

theorem readInstant_isoText (host : Zone) (h : v.Canonical) :
    readInstant host (isoText v ++ ['Z']) = .ok v.rolled := by
  have hzero : ∀ offset ∈ some (0 : Int), -86400 < offset ∧ offset < 86400 := by
    simp
  obtain ⟨wall, hread, hwall⟩ :=
    Timestamp.Style.extended.exists_read?_text h (fun c (hc : c ∈ []) => nomatch hc) hzero
  rw [← isoText_zeroOffset, ← Timestamp.read?_zulu] at hread
  have hstart : trimStart (isoText v) = isoText v := by
    rw [isoText_eq, Timestamp.Style.text, Timestamp.Style.isWord_dateText.trimStart_append]
  have htrim : trim (isoText v ++ ['Z']) = isoText v ++ ['Z'] := by
    have hlast : IsWord ['Z'] :=
      ⟨List.cons_ne_nil _ _, List.forall_mem_singleton.mpr (by decide)⟩
    rw [hlast.trim_append, hstart]
  rw [readInstant_of_zulu_mem host (by simp [htrim]), htrim, hread]
  simp only [Option.map_some, Timestamp.instant, Int.mul_zero, Int.sub_zero, hwall]
  rfl

theorem readInstant_toString (host : Zone) (h : writable n = true) :
    readInstant host (toString n).toList = .ok n := by
  have htrim : trim (toString n).toList = (toString n).toList :=
    trim_of_not_blank fun c hc => (solid_of_mem_toString hc).1
  have hdigits : (toString n).toList.dropWhile (· == '-') = Nat.toDigits 10 n.natAbs := by
    obtain ⟨c, cs, hc⟩ := List.exists_cons_of_ne_nil (Nat.toDigits_ne_nil (b := 10) (n := n.natAbs))
    have hdash : (c == '-') = false := by
      have hdigit : c.isDigit = true := isDigit_of_mem_toDigits (hc ▸ List.mem_cons_self)
      refine beq_false_of_ne ?_
      rintro rfl
      exact absurd hdigit (by decide)
    rw [toList_toString, hc]
    split <;> simp [hdash]
  have hlike : (Nat.toDigits 10 n.natAbs).all isDigitLike = true := by
    refine List.all_eq_true.mpr fun c hc => ?_
    rw [isDigitLike, isDigit_of_ascii (isDigit_of_mem_toDigits hc), Bool.true_or]
  have hne : (Nat.toDigits 10 n.natAbs).isEmpty = false :=
    List.isEmpty_eq_false_iff.mpr Nat.toDigits_ne_nil
  rw [readInstant, htrim]
  simp only [hdigits, hne, hlike, Bool.not_false, Bool.and_self, if_true, integer?_toString h]

/-! ## Writing -/

/-- Exactly the instants before year 1 and after year 9999 have no text. -/
theorem writeInstant?_eq_none_iff :
    writeInstant? t = none ↔
      t < (Fields.mk 1 1 1 0 0 0 0).rolled ∨ (Fields.mk 9999 12 31 23 59 59 999).rolled < t := by
  have hfirst : (Fields.mk 1 1 1 0 0 0 0).rolled = firstWall := by decide
  have hlast : (Fields.mk 9999 12 31 23 59 59 999).rolled = lastWall := by decide
  have hin : inCalendar t = false ↔ t < firstWall ∨ lastWall < t := by
    rw [inCalendar, Bool.and_eq_false_iff, decide_eq_false_iff_not, decide_eq_false_iff_not]
    omega
  rw [hfirst, hlast, ← hin, writeInstant?]
  cases inCalendar t <;> simp

theorem writeInstant?_eq_some (h : writeInstant? t = some text) :
    ∃ v : Fields, v.Canonical ∧ v.rolled = t ∧ text.toList = isoText v ++ ['Z'] := by
  rw [writeInstant?] at h
  split at h
  · rename_i hin
    obtain rfl := Option.some.inj h
    exact ⟨Fields.ofWall t, WallClock.canonical_ofWall hin, Fields.rolled_ofWall t,
      String.toList_ofList⟩
  · cases h

/-- Just the instants of the calendar are written. What is written is read back by every host, and
    it sorts as the instants do. A plain number within the length bound is read back as well. -/
theorem readInstant_text (host : Zone) (t t' n : Int) :
    (writeInstant? t = none ↔ t < (Fields.mk 1 1 1 0 0 0 0).rolled ∨
      (Fields.mk 9999 12 31 23 59 59 999).rolled < t) ∧
    (∀ text, writeInstant? t = some text → readInstant host text.toList = .ok t ∧
      ∀ text', writeInstant? t' = some text' → (t < t' ↔ text < text')) ∧
    (writable n = true → readInstant host (toString n).toList = .ok n) := by
  refine ⟨writeInstant?_eq_none_iff, ?_, readInstant_toString host⟩
  intro text h
  obtain ⟨v, hv, hrolled, htext⟩ := writeInstant?_eq_some h
  refine ⟨?_, ?_⟩
  · rw [htext, readInstant_isoText host hv, hrolled]
  · intro text' h'
    obtain ⟨v', hv', hrolled', htext'⟩ := writeInstant?_eq_some h'
    rw [String.lt_iff_toList_lt, htext, htext', isoText_append_lt_iff hv hv', hrolled, hrolled']

/-- The last millisecond of the year 999 against the millisecond before 1970. -/
theorem readInstant_text_before_epoch :
    writeInstant? (-30610224000001) = some "0999-12-31T23:59:59.999Z" ∧
    readInstant Zone.utc "0999-12-31T23:59:59.999Z".toList = .ok (-30610224000001) ∧
    "0999-12-31T23:59:59.999Z" < "1969-12-31T23:59:59.999Z" ∧
    readInstant Zone.utc "-30610224000001".toList = .ok (-30610224000001) := by
  have hearly : writeInstant? (-30610224000001) = some "0999-12-31T23:59:59.999Z" := by
    decide +kernel
  have hlate : writeInstant? (-1) = some "1969-12-31T23:59:59.999Z" := by
    decide +kernel
  obtain ⟨-, htext, hnumber⟩ := readInstant_text Zone.utc (-30610224000001) (-1) (-30610224000001)
  obtain ⟨hread, horder⟩ := htext _ hearly
  refine ⟨hearly, hread, (horder _ hlate).mp (by decide), hnumber ?_⟩
  decide +kernel

end Timespan
