/-
  Timestamps that end in a Z, which stands for the offset `+00:00`. Behind a time of day that is
  what it is read as, so that every host makes the same instant of the text. Right behind a date the
  plus sign is the separator and `00:00` the time, and the text means midnight on the host's clock
  (`readInstant_zulu`).
-/
import Timespan.Proofs.Except
import Timespan.Proofs.Text.Words
import Timespan.Proofs.Timestamp.Read
import Timespan.Proofs.Zone.Yearly

namespace Timespan

open Timespan.Calendar Timespan.Text

variable {sign : Char} {cs ds rest time : List Char} {day o : Int} {separated : Bool}

namespace Timestamp

/-! ## What is read and what is left -/

/-- A reader that leaves `rest` of a text has passed over no plus sign. -/
def PassesNoPlus (cs rest : List Char) : Prop := ∃ xs, cs = xs ++ rest ∧ '+' ∉ xs

theorem PassesNoPlus.refl (cs : List Char) : PassesNoPlus cs cs := ⟨[], rfl, List.not_mem_nil⟩

theorem PassesNoPlus.trans {left : List Char} (h : PassesNoPlus cs rest)
    (h' : PassesNoPlus rest left) : PassesNoPlus cs left := by
  obtain ⟨xs, rfl, hxs⟩ := h
  obtain ⟨ys, rfl, hys⟩ := h'
  exact ⟨xs ++ ys, by simp, by simp [hxs, hys]⟩

theorem PassesNoPlus.plus_mem (h : PassesNoPlus cs rest) (hplus : '+' ∈ cs) : '+' ∈ rest := by
  obtain ⟨xs, rfl, hxs⟩ := h
  exact (List.mem_append.mp hplus).resolve_left hxs

theorem passesNoPlus_cons {c : Char} (hc : c ≠ '+') (rest : List Char) :
    PassesNoPlus (c :: rest) rest :=
  ⟨[c], rfl, by simpa using hc.symm⟩

/-- A plus sign stays in what is left, with all that comes after it. -/
theorem exists_rest_of_append_eq {xs : List Char} (hxs : '+' ∉ xs)
    (h : cs ++ '+' :: ds = xs ++ rest) : ∃ ys, cs = xs ++ ys ∧ rest = ys ++ '+' :: ds := by
  rcases List.append_eq_append_iff.mp h with ⟨ys, rfl, hys⟩ | ⟨ys, hcs, hrest⟩
  · cases ys with
    | nil => exact ⟨[], by simp, by simpa using hys.symm⟩
    | cons c ys =>
      obtain ⟨rfl, -⟩ := List.cons.inj hys
      exact absurd (by simp) hxs
  · exact ⟨ys, hcs, hrest⟩

theorem plus_not_mem_of_isDigit (h : ∀ c ∈ ds, c.isDigit = true) : '+' ∉ ds :=
  fun hplus => absurd (h '+' hplus) (by decide)

theorem number?_passes {k : Nat} (h : number? n cs = some (k, rest)) : PassesNoPlus cs rest := by
  obtain ⟨ds, hds, rfl⟩ := number?_eq_some_iff.mp h
  exact ⟨ds, rfl, plus_not_mem_of_isDigit hds.digit⟩

theorem fraction?_passes {micro : Nat} (h : fraction? cs = some (micro, rest)) :
    PassesNoPlus cs rest := by
  rw [fraction?] at h
  split at h
  · cases h
  · rename_i hdigits
    obtain ⟨-, rfl⟩ := Prod.mk.inj (Option.some.inj h)
    simp only [Bool.or_eq_true, Bool.not_eq_true', not_or, Bool.not_eq_false] at hdigits
    refine ⟨cs.take 6 ++ (cs.drop 6).takeWhile Char.isDigit, ?_, plus_not_mem_of_isDigit ?_⟩
    · rw [List.append_assoc, List.takeWhile_append_dropWhile, List.take_append_drop]
    · intro c hc
      rcases List.mem_append.mp hc with hc | hc
      · exact List.all_eq_true.mp hdigits.2 c hc
      · exact List.mem_takeWhile_imp hc

/-- What is still to read after a field. -/
def Continuation.text : Continuation → List Char
  | .over rest | .field rest | .fraction rest => rest

theorem continuation?_passes {k : Continuation} (h : continuation? separated cs = some k) :
    PassesNoPlus cs k.text := by
  rw [continuation?.eq_def] at h
  split at h
  · cases h
    exact .refl _
  · split at h
    · cases h
      exact .refl _
    · cases h
  · split at h
    · rename_i hcolon
      cases h
      refine passesNoPlus_cons ?_ _
      rintro rfl
      simp at hcolon
    · split at h
      · rename_i hfraction
        cases h
        refine passesNoPlus_cons ?_ _
        rintro rfl
        simp at hfraction
      · split at h
        · cases h
        · cases h
          exact .refl _

theorem furtherFields?_passes {n : Nat} {cs rest : List Char} {values : List Nat} {micro : Nat}
    (h : furtherFields? separated n cs = some (values, micro, rest)) : PassesNoPlus cs rest := by
  rw [furtherFields?.eq_def] at h
  obtain ⟨k, hk, h⟩ := Option.bind_eq_some_iff.mp h
  have hpassed := continuation?_passes hk
  rcases k with left | left | left
  · cases h
    exact hpassed
  · cases n with
    | zero =>
      obtain ⟨⟨micro, rest⟩, hfraction, ⟨⟩⟩ := Option.bind_eq_some_iff.mp h
      exact hpassed.trans (fraction?_passes hfraction)
    | succ n =>
      obtain ⟨⟨value, rest⟩, hvalue, h⟩ := Option.bind_eq_some_iff.mp h
      obtain ⟨⟨values, micro, rest⟩, hfields, ⟨⟩⟩ := Option.bind_eq_some_iff.mp h
      exact (hpassed.trans (number?_passes hvalue)).trans (furtherFields?_passes hfields)
  · obtain ⟨⟨micro, rest⟩, hfraction, ⟨⟩⟩ := Option.bind_eq_some_iff.mp h
    exact hpassed.trans (fraction?_passes hfraction)

theorem Reading.read?_passes {r : Reading} (h : Reading.read? cs = some (r, rest)) :
    PassesNoPlus cs rest := by
  obtain ⟨⟨hour, rest⟩, hhour, h⟩ := Option.bind_eq_some_iff.mp h
  obtain ⟨⟨values, micro, rest⟩, hfields, ⟨⟩⟩ := Option.bind_eq_some_iff.mp h
  exact (number?_passes hhour).trans (furtherFields?_passes hfields)

theorem IsDate.plus_not_mem (h : IsDate cs day) : '+' ∉ cs :=
  fun hplus => absurd (h.digit_or '+' hplus) (by decide)

/-! ## Offsets -/

@[simp] theorem timeOfDay?_zeroOffset : timeOfDay? zeroOffset = some (⟨0, 0, 0, 0⟩, none) := by
  decide +kernel

/-- An offset goes up to its end or to a null character: a plus sign is no part of it. -/
theorem nul_mem_of_signedOffset? (h : signedOffset? sign cs = some o) (hplus : '+' ∈ cs) :
    '\x00' ∈ cs := by
  obtain ⟨⟨r, rest⟩, hread, h⟩ := Option.bind_eq_some_iff.mp h
  have hpassed := Reading.read?_passes hread
  have hrest := hpassed.plus_mem hplus
  have hover : isOver rest = true := by
    by_contra hover
    simp [hover] at h
  obtain ⟨xs, rfl, -⟩ := hpassed
  cases rest with
  | nil => exact absurd hrest List.not_mem_nil
  | cons c rest =>
    have hc : c.toNat = 0 := by simpa [isOver] using hover
    obtain rfl : c = '\x00' := Char.toNat_inj.mp hc
    simp

/-- A time with a sign in it has an offset, the one behind its first sign. -/
theorem exists_signedOffset?_of_timeOfDay? {r : Reading} {offset? : Option Int}
    (hcs : ∀ c ∈ cs, c ≠ '+' ∧ c ≠ '-') (hsign : sign = '+' ∨ sign = '-')
    (h : timeOfDay? (cs ++ sign :: rest) = some (r, offset?)) :
    ∃ o, signedOffset? sign rest = some o ∧ offset? = some o := by
  rw [timeOfDay?_signed hcs hsign] at h
  obtain ⟨⟨r, left⟩, -, h⟩ := Option.bind_eq_some_iff.mp h
  dsimp only at h
  split at h
  · obtain ⟨o, ho, hpair⟩ := Option.map_eq_some_iff.mp h
    cases hpair
    exact ⟨o, ho, rfl⟩
  · cases h

/-- A time in front of the offset of UTC has that offset, or one of its own that a null character
    ends. -/
theorem exists_offset_of_timeOfDay? {r : Reading} {offset? : Option Int}
    (h : timeOfDay? (time ++ '+' :: zeroOffset) = some (r, offset?)) :
    ∃ o, offset? = some o ∧ ('\x00' ∉ time → o = 0) := by
  cases hfind : time.find? (fun c => c == '+' || c == '-') with
  | none =>
    have htime : ∀ c ∈ time, c ≠ '+' ∧ c ≠ '-' := by simpa using hfind
    obtain ⟨o, ho, rfl⟩ := exists_signedOffset?_of_timeOfDay? htime (Or.inl rfl) h
    rw [signedOffset?_zeroOffset] at ho
    exact ⟨o, rfl, fun _ => (Option.some.inj ho).symm⟩
  | some sign =>
    obtain ⟨hsign, xs, ys, rfl, hxs⟩ := List.find?_eq_some_iff_append.mp hfind
    rw [List.append_assoc, List.cons_append] at h
    obtain ⟨o, ho, rfl⟩ :=
      exists_signedOffset?_of_timeOfDay? (by simpa using hxs) (by simpa using hsign) h
    refine ⟨o, rfl, fun hnul => absurd (nul_mem_of_signedOffset? ho (by simp)) ?_⟩
    simp only [List.mem_append, List.mem_cons, not_or] at hnul ⊢
    exact ⟨hnul.2.2, by decide, by decide⟩

/-! ## The designator -/

theorem expandZulu_of_plus_not_mem (h : '+' ∉ expandZulu cs) : expandZulu cs = cs := by
  refine expandZulu_of_not_mem fun c hc => ?_
  rintro rfl
  exact h (List.mem_flatMap.mpr ⟨'Z', hc, by simp⟩)

theorem nul_mem_of_mem_expandZulu (h : '\x00' ∈ expandZulu cs) : '\x00' ∈ cs := by
  obtain ⟨c, hc, h⟩ := List.mem_flatMap.mp h
  split at h
  · exact absurd h (by decide)
  · rwa [List.mem_singleton.mp h]

theorem IsDate.read?_zulu (h : IsDate cs day) :
    read? (cs ++ ['Z']) = some ⟨day * dayMillis * 1000, none⟩ := by
  have hplain : ∀ c ∈ cs, c ≠ 'Z' := by
    rintro c hc rfl
    exact absurd (h.digit_or 'Z' hc) (by decide)
  have hends : EndsDate ('+' :: zeroOffset) := by
    rintro c ⟨⟩
    decide
  rw [read?, expandZulu_zulu, expandZulu_of_not_mem hplain, h.date?_append hends]
  simp only [Option.bind_eq_bind, Option.bind_some, timeOfDay?_zeroOffset]
  simp [Reading.micros, Reading.seconds]

/-- Anything but a date has an offset when a Z comes after it: a plus sign is left for the time. -/
theorem exists_offset_of_read?_zulu {s : Timestamp} (hcs : ∀ day, ¬ IsDate cs day)
    (h : read? (cs ++ ['Z']) = some s) :
    ∃ o, s.offset? = some o ∧ ('\x00' ∉ cs → o = 0) := by
  rw [read?, expandZulu_zulu] at h
  obtain ⟨⟨day, rest⟩, hdate, h⟩ := Option.bind_eq_some_iff.mp h
  obtain ⟨xs, hxs, hsplit⟩ := exists_isDate_of_date? hdate
  obtain ⟨ys, hys, rfl⟩ := exists_rest_of_append_eq hxs.plus_not_mem hsplit
  cases ys with
  | nil =>
    rw [List.append_nil] at hys
    rw [← hys] at hxs
    exact absurd (expandZulu_of_plus_not_mem hxs.plus_not_mem ▸ hxs) (hcs day)
  | cons c time =>
    obtain ⟨⟨r, offset?⟩, htime, ⟨⟩⟩ := Option.bind_eq_some_iff.mp h
    obtain ⟨o, rfl, ho⟩ := exists_offset_of_timeOfDay? htime
    refine ⟨o, rfl, fun hnul => ho fun htime => hnul (nul_mem_of_mem_expandZulu ?_)⟩
    rw [hys]
    simp [htime]

end Timestamp

/-! ## Instants -/

theorem trim_append_zulu (cs : List Char) : trim (cs ++ ['Z']) = trimStart cs ++ ['Z'] :=
  IsWord.trim_append ⟨by simp, List.forall_mem_singleton.mpr (by decide)⟩ cs

/-- Whether a text that ends in a Z names an instant and which one depends on the host just where
    nothing but a date is in front of the Z: it names the midnight at which this day starts on the
    host's clock. Any other text has an offset for every host, and that is the offset of UTC unless
    a null character is in the text. -/
theorem readInstant_zulu (cs : List Char) :
    (∀ day, Timestamp.IsDate (trimStart cs) day → ∀ host : Zone,
      readInstant host (cs ++ ['Z']) =
        (host.searchInstant (day * dayMillis)).mapError InstantFault.ofSearch) ∧
    ((∀ day, ¬ Timestamp.IsDate (trimStart cs) day) →
      (∀ host host', readInstant host (cs ++ ['Z']) = readInstant host' (cs ++ ['Z'])) ∧
      ('\x00' ∉ cs → ∀ host t, readInstant host (cs ++ ['Z']) = .ok t →
        ∃ wall, Timestamp.read? (trim (cs ++ ['Z'])) = some ⟨wall, some 0⟩ ∧ t = wall / 1000)) := by
  have hzulu : 'Z' ∈ trim (cs ++ ['Z']) := by simp [trim_append_zulu]
  have hread : ∀ host, readInstant host (cs ++ ['Z']) = _ := fun host =>
    readInstant_of_zulu_mem host hzulu
  constructor
  · intro day hday host
    rw [hread, trim_append_zulu, hday.read?_zulu]
    simp only [Timestamp.instant, Int.mul_ediv_cancel _ (by decide : (1000 : Int) ≠ 0)]
  · intro hday
    cases hs : Timestamp.read? (trim (cs ++ ['Z'])) with
    | none =>
      refine ⟨fun host host' => ?_, fun _ host t h => ?_⟩
      · rw [hread, hread, hs]
      · rw [hread, hs] at h
        cases h
    | some s =>
      obtain ⟨o, ho, hzero⟩ :=
        Timestamp.exists_offset_of_read?_zulu hday (trim_append_zulu cs ▸ hs)
      have hinstant : ∀ host, readInstant host (cs ++ ['Z']) = .ok ((s.wall - o) / 1000) := by
        intro host
        rw [hread, hs]
        simp only [Timestamp.instant, ho]
        rfl
      refine ⟨fun host host' => (hinstant host).trans (hinstant host').symm, ?_⟩
      intro hnul host t h
      obtain rfl := hzero fun h => hnul (List.dropWhile_subset _ h)
      cases (hinstant host).symm.trans h
      exact ⟨s.wall, by rw [← ho], by rw [Int.sub_zero]⟩

/-- A Monday by its week, which starts in eastern time, and a time of day, which is the same in UTC
    and in eastern time. -/
theorem readInstant_zulu_week_and_time :
    Timestamp.IsDate "2001-W36".toList 11568 ∧
    readInstant Zone.eastern ("2001-W36".toList ++ ['Z']) = .ok 999489600000 ∧
    (∀ day, ¬ Timestamp.IsDate "2001-09-09T01:46:40.1239".toList day) ∧
    readInstant Zone.eastern ("2001-09-09T01:46:40.1239".toList ++ ['Z']) =
      readInstant Zone.utc ("2001-09-09T01:46:40.1239".toList ++ ['Z']) ∧
    ∃ wall, Timestamp.read? "2001-09-09T01:46:40.1239Z".toList = some ⟨wall, some 0⟩ ∧
      1000000000123 = wall / 1000 := by
  have hweek : Timestamp.IsDate "2001-W36".toList 11568 := by
    rw [Timestamp.isDate_iff]
    decide +kernel
  have htime : ∀ day, ¬ Timestamp.IsDate "2001-09-09T01:46:40.1239".toList day := by
    intro day h
    have hread : Timestamp.date? "2001-09-09T01:46:40.1239".toList =
        some (11574, "T01:46:40.1239".toList) := by
      decide +kernel
    rw [Timestamp.isDate_iff, hread] at h
    cases h
  obtain ⟨hbare, -⟩ := readInstant_zulu "2001-W36".toList
  obtain ⟨-, hsame⟩ := readInstant_zulu "2001-09-09T01:46:40.1239".toList
  obtain ⟨hhosts, hutc⟩ := hsame htime
  refine ⟨hweek, ?_, htime, hhosts _ _, ?_⟩
  · rw [hbare 11568 hweek]
    decide +kernel
  · exact hutc (by decide +kernel) Zone.utc 1000000000123 (by decide +kernel)

/-- The same date with the same designator is midnight in UTC on one host and midnight in eastern
    time, four hours later, on another. -/
theorem readInstant_zulu_midnights :
    readInstant Zone.utc "2001-09-09Z".toList = .ok 999993600000 ∧
    readInstant Zone.eastern "2001-09-09Z".toList = .ok 1000008000000 := by
  constructor
  · decide +kernel
  · decide +kernel

end Timespan
