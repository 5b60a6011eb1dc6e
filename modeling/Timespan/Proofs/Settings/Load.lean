/-
  Settings in layers. The text that counts for a setting is that of the environment unless it is
  empty, else that of the last assignment to it in the file. Whether a setting is malformed, and
  what it comes to, depends on that one text: no malformed setting hides another
  (`mem_of_load_eq_invalid`), and each field says what its own setting does (`reflects_of_load`).
-/
import Timespan.Proofs.Except
import Timespan.Settings.Load

namespace Timespan

variable {atlas : Atlas} {s : Sources} {x : Setting} {text : String} {α : Type}

/-! ## The text that counts -/

/-- The last assignment to a key gives it this value. -/
def Assignments.Last (as : List (String × String)) (key value : String) : Prop :=
  ∃ before after, as = before ++ (key, value) :: after ∧ ∀ p ∈ after, p.1 ≠ key

theorem find?_eq_some_iff {as : List (String × String)} {key value : String} :
    Assignments.find? as key = some value ↔ Assignments.Last as key value := by
  rw [Assignments.find?, List.lookup_eq_some_iff]
  constructor
  · rintro ⟨l₁, l₂, h, hne⟩
    refine ⟨l₂.reverse, l₁.reverse, ?_, ?_⟩
    · rw [← List.reverse_reverse as, h]
      simp
    · intro p hp
      exact (bne_iff_ne.mp (hne p (List.mem_reverse.mp hp))).symm
  · rintro ⟨before, after, rfl, hne⟩
    refine ⟨after.reverse, before.reverse, by simp, ?_⟩
    intro p hp
    exact bne_iff_ne.mpr (hne p (List.mem_reverse.mp hp)).symm

/-- The text of the environment, unless it is empty, or else that of the last assignment. -/
def Sources.Effective (s : Sources) (x : Setting) (text : String) : Prop :=
  s.environment.lookup x.key = some text ∧ text ≠ "" ∨
    (∀ e, s.environment.lookup x.key = some e → e = "") ∧ Assignments.Last s.file x.key text

theorem text?_eq_some_iff : s.text? x = some text ↔ s.Effective x text := by
  rw [Sources.text?, Sources.Effective, ← find?_eq_some_iff]
  cases s.environment.lookup x.key with
  | none => simp
  | some e =>
    by_cases he : e = ""
    · simp [he]
    · have hsome : (some e).filter (· ≠ "") = some e := by simp [he]
      rw [hsome]
      simp only [Option.some_or, Option.some.injEq]
      constructor
      · rintro rfl
        exact Or.inl ⟨rfl, he⟩
      · rintro (h | ⟨h, -⟩)
        · exact h.1
        · exact absurd (h e rfl) he

/-! ## Malformed settings -/

/-- The word that a switch is read from. -/
def Value.word (text : String) : String :=
  String.ofList ((Text.trim text.toList).map Text.lower)

theorem switch_eq_ok_iff {b : Bool} :
    Value.switch text = .ok b ↔
      b = true ∧ Value.word text ∈ Value.trueWords ∨
        b = false ∧ Value.word text ∈ Value.falseWords := by
  have hdisjoint : ∀ w ∈ Value.trueWords, w ∉ Value.falseWords := by decide
  rw [Value.switch, ← Value.word]
  simp only [List.contains_eq_mem, decide_eq_true_eq]
  split
  · rename_i h
    simp [h, hdisjoint _ h, eq_comm]
  · rename_i h
    split <;> simp_all [eq_comm]

theorem exists_switch_eq_error_iff :
    (∃ fault, Value.switch text = .error fault) ↔
      Value.word text ∉ Value.trueWords ∧ Value.word text ∉ Value.falseWords := by
  rw [Value.switch, ← Value.word]
  simp only [List.contains_eq_mem, decide_eq_true_eq]
  split
  · rename_i h
    simp [h]
  · rename_i h
    split <;> simp_all

theorem width_eq_ok_iff {n : Int} :
    Value.width text = .ok n ↔ Text.integer? text.toList = some n ∧ 0 ≤ n := by
  rw [Value.width]
  cases Text.integer? text.toList with
  | none => simp
  | some m =>
    simp only [Option.some.injEq]
    split
    · rename_i h
      simp only [reduceCtorEq, false_iff]
      omega
    · simp only [Except.ok.injEq]
      omega

theorem instant_eq_ok_iff {host : Zone} {t : Int} :
    Value.instant host text = .ok t ↔ readInstant host text.toList = .ok t := by
  rw [Value.instant]
  split <;> simp_all

theorem instant_eq_outsideCalendar_iff {host : Zone} :
    Value.instant host text = .error .outsideCalendar ↔
      readInstant host text.toList = .error .outsideCalendar := by
  rw [Value.instant]
  split <;> simp_all

/-- Does a setting refuse a text? Only a switch takes the empty one for a value. -/
def Setting.Refuses (atlas : Atlas) : Setting → String → Prop
  | .utc, text => Value.word text ∉ Value.trueWords ∧ Value.word text ∉ Value.falseWords
  | .zone, text => text ≠ "" ∧ atlas.named? text = none
  | .now, text => text ≠ "" ∧ readInstant atlas.host text.toList = .error .malformed
  | .width, text => text ≠ "" ∧ ¬∃ n, Text.integer? text.toList = some n ∧ 0 ≤ n

def Sources.Malformed (atlas : Atlas) (s : Sources) (x : Setting) : Prop :=
  ∃ text, s.Effective x text ∧ x.Refuses atlas text

/-! ## One setting -/

theorem readSetting_eq_ok_iff {text? : Option String} {read : String → Except ValueFault α}
    {a? : Option α} :
    readSetting text? read = .ok a? ↔
      text? = none ∧ a? = none ∨ ∃ text a, text? = some text ∧ read text = .ok a ∧ a? = some a := by
  cases text? with
  | none => simp [readSetting, eq_comm]
  | some text =>
    rw [readSetting, map_eq_ok_iff]
    simp [eq_comm]

theorem readSetting_eq_error_iff {text? : Option String} {read : String → Except ValueFault α}
    {fault : ValueFault} :
    readSetting text? read = .error fault ↔
      ∃ text, text? = some text ∧ read text = .error fault := by
  cases text? with
  | none => simp [readSetting]
  | some text => simp [readSetting]

theorem isOk_readSetting_eq_false_iff {text? : Option String}
    {read : String → Except ValueFault α} :
    (readSetting text? read).isOk = false ↔
      ∃ text, text? = some text ∧ ∃ fault, read text = .error fault := by
  cases text? with
  | none => simp [readSetting, Except.isOk, Except.toBool]
  | some text =>
    simp only [readSetting, Option.some.injEq, exists_eq_left']
    cases read text <;> simp [Except.isOk, Except.toBool]

/-- The text of a setting for which the empty one is none. -/
def Sources.filled? (s : Sources) (x : Setting) : Option String := (s.text? x).filter (· ≠ "")

theorem filled?_eq_some_iff : s.filled? x = some text ↔ s.Effective x text ∧ text ≠ "" := by
  rw [Sources.filled?, Option.filter_eq_some_iff, text?_eq_some_iff, decide_eq_true_eq]

theorem filled?_eq_none_iff : s.filled? x = none ↔ ∀ text, s.Effective x text → text = "" := by
  rw [Option.eq_none_iff_forall_ne_some]
  simp only [ne_eq, filled?_eq_some_iff, not_and, Decidable.not_not]

/-- Does the text of a setting come to something? -/
def Sources.reads (atlas : Atlas) (s : Sources) : Setting → Bool
  | .utc => (readSetting (s.text? .utc) Value.switch).isOk
  | .zone => (readSetting (s.filled? .zone) (knownZone atlas)).isOk
  | .now => (readSetting (s.filled? .now) (Value.instant atlas.host)).isOk
  | .width => (readSetting (s.filled? .width) Value.width).isOk

/-- What the settings can come to: the present instant lies outside the calendar, or all four
    settings come to something, or one does not and is listed. -/
theorem load_cases (atlas : Atlas) (s : Sources) :
    readSetting (s.filled? .now) (Value.instant atlas.host) = .error .outsideCalendar ∧
      Config.load atlas s = .error .outsideCalendar ∨
    readSetting (s.filled? .now) (Value.instant atlas.host) ≠ .error .outsideCalendar ∧
      ((∃ utc? zone? now? width?, readSetting (s.text? .utc) Value.switch = .ok utc? ∧
          readSetting (s.filled? .zone) (knownZone atlas) = .ok zone? ∧
          readSetting (s.filled? .now) (Value.instant atlas.host) = .ok now? ∧
          readSetting (s.filled? .width) Value.width = .ok width? ∧
          Config.load atlas s =
            .ok ⟨utc?.getD false, zone?, now?, width?.getD defaultWidth⟩) ∨
        (∃ x, s.reads atlas x = false) ∧ Config.load atlas s = .error (.invalid (malformed
          ([.utc, .zone, .now, .width].map fun x => (x, s.reads atlas x))))) := by
  have hfilled : ∀ x, (s.text? x).filter (· ≠ "") = s.filled? x := fun _ => rfl
  simp only [Config.load, hfilled]
  split
  · rename_i hnow
    exact Or.inl ⟨hnow, rfl⟩
  · rename_i hutc hzone hnow hwidth
    refine Or.inr ⟨by simp [hnow], Or.inl ⟨_, _, _, _, hutc, hzone, hnow, hwidth, rfl⟩⟩
  · rename_i hcalendar hok
    refine Or.inr ⟨?_, Or.inr ⟨?_, rfl⟩⟩
    · intro hnow
      exact hcalendar hnow
    · apply Classical.byContradiction
      intro hnone
      have hall : ∀ x, s.reads atlas x = true := by
        intro x
        rw [← Bool.not_eq_false]
        exact fun h => hnone ⟨x, h⟩
      obtain ⟨_, hutc⟩ := isOk_iff.mp (hall .utc)
      obtain ⟨_, hzone⟩ := isOk_iff.mp (hall .zone)
      obtain ⟨_, hnow⟩ := isOk_iff.mp (hall .now)
      obtain ⟨_, hwidth⟩ := isOk_iff.mp (hall .width)
      exact hok _ _ _ _ hutc hzone hnow hwidth

/-! ## The list of malformed settings -/

theorem mem_malformed {results : List (Setting × Bool)} :
    x ∈ malformed results ↔ (x, false) ∈ results := by
  simp only [malformed, List.mem_filterMap, Prod.exists]
  constructor
  · rintro ⟨y, ok, hmem, hy⟩
    cases ok with
    | true => cases hy
    | false =>
      obtain rfl := Option.some.inj hy
      exact hmem
  · intro hmem
    exact ⟨x, false, hmem, rfl⟩

theorem malformed_sublist (results : List (Setting × Bool)) :
    (malformed results).Sublist (results.map (·.1)) := by
  induction results with
  | nil => exact List.Sublist.slnil
  | cons result results ih =>
    obtain ⟨y, ok⟩ := result
    cases ok with
    | true => exact ih.cons y
    | false => exact ih.cons_cons y

theorem isOk_readSetting_filled_eq_false_iff {read : String → Except ValueFault α}
    {refuses : String → Prop}
    (h : ∀ text, s.filled? x = some text → ((∃ fault, read text = .error fault) ↔ refuses text)) :
    (readSetting (s.filled? x) read).isOk = false ↔
      ∃ text, s.Effective x text ∧ text ≠ "" ∧ refuses text := by
  rw [isOk_readSetting_eq_false_iff]
  refine exists_congr fun text => ?_
  rw [← and_assoc, ← filled?_eq_some_iff]
  exact and_congr_right fun htext => h text htext

/-- Unless the present instant lies outside the calendar, a setting comes to nothing just where its
    text is malformed. -/
theorem reads_eq_false_iff
    (h : readSetting (s.filled? .now) (Value.instant atlas.host) ≠ .error .outsideCalendar) :
    s.reads atlas x = false ↔ s.Malformed atlas x := by
  cases x with
  | utc =>
    simp only [Sources.reads, isOk_readSetting_eq_false_iff, text?_eq_some_iff,
      exists_switch_eq_error_iff, Sources.Malformed, Setting.Refuses]
  | zone =>
    refine isOk_readSetting_filled_eq_false_iff fun text _ => ?_
    rw [knownZone]
    cases atlas.named? text <;> simp
  | now =>
    refine isOk_readSetting_filled_eq_false_iff fun text htext => ?_
    rw [Value.instant]
    cases hread : readInstant atlas.host text.toList with
    | ok t => simp
    | error fault =>
      cases fault with
      | malformed => simp
      | outsideCalendar =>
        exact absurd (readSetting_eq_error_iff.mpr
          ⟨text, htext, instant_eq_outsideCalendar_iff.mpr hread⟩) h
  | width =>
    refine isOk_readSetting_filled_eq_false_iff fun text _ => ?_
    simp only [← width_eq_ok_iff]
    cases Value.width text <;> simp

/-! ## What the settings come to -/

/-- The present instant of the settings lies outside the calendar just where its text is a reading
    of the host's clock that does; then nothing is said about the other settings. -/
theorem load_eq_outsideCalendar_iff :
    Config.load atlas s = .error .outsideCalendar ↔
      ∃ text, s.Effective .now text ∧ text ≠ "" ∧
        readInstant atlas.host text.toList = .error .outsideCalendar := by
  have hnow : readSetting (s.filled? .now) (Value.instant atlas.host) = .error .outsideCalendar ↔
      ∃ text, s.Effective .now text ∧ text ≠ "" ∧
        readInstant atlas.host text.toList = .error .outsideCalendar := by
    rw [readSetting_eq_error_iff]
    simp only [filled?_eq_some_iff, instant_eq_outsideCalendar_iff, and_assoc]
  rw [← hnow]
  rcases load_cases atlas s with ⟨h, hload⟩ | ⟨h, ⟨_, _, _, _, -, -, -, -, hload⟩ | ⟨-, hload⟩⟩
  · simp only [h, hload]
  · simp only [h, hload, reduceCtorEq]
  · simp only [h, hload, Except.error.injEq, reduceCtorEq]

/-- Malformed settings are listed in order, all of them and nothing else. -/
theorem mem_of_load_eq_invalid {ss : List Setting}
    (h : Config.load atlas s = .error (.invalid ss)) :
    ss.Sublist [.utc, .zone, .now, .width] ∧ (∃ x, s.Malformed atlas x) ∧
      ∀ x, x ∈ ss ↔ s.Malformed atlas x := by
  rcases load_cases atlas s with ⟨-, hload⟩ | ⟨hin, ⟨_, _, _, _, -, -, -, -, hload⟩ | ⟨hbad, hload⟩⟩
  · rw [h] at hload
    cases hload
  · rw [h] at hload
    cases hload
  · rw [h] at hload
    obtain rfl := SettingsFault.invalid.inj (Except.error.inj hload)
    obtain ⟨y, hy⟩ := hbad
    refine ⟨?_, ⟨y, (reads_eq_false_iff hin).mp hy⟩, fun x => ?_⟩
    · have hsub := malformed_sublist ([.utc, .zone, .now, .width].map fun x => (x, s.reads atlas x))
      rwa [List.map_map] at hsub
    · rw [mem_malformed, ← reads_eq_false_iff hin, List.mem_map]
      constructor
      · rintro ⟨y, -, hy⟩
        obtain ⟨rfl, hread⟩ := Prod.mk.inj hy
        exact hread
      · intro hread
        exact ⟨x, by cases x <;> decide, by rw [hread]⟩

/-- A field is what `reads` makes of the text of its setting, or its default where there is no text
    or an empty one. -/
def Sources.Gives (s : Sources) (x : Setting) (reads : String → α → Prop) (default a : α) : Prop :=
  (∃ text, s.Effective x text ∧ reads text a) ∨
    (∀ text, s.Effective x text → text = "") ∧ a = default

/-- Every field of a configuration is what its own setting gives. -/
structure Config.Reflects (c : Config) (atlas : Atlas) (s : Sources) : Prop where
  utc : s.Gives .utc (fun text b => b = true ∧ Value.word text ∈ Value.trueWords ∨
    b = false ∧ Value.word text ∈ Value.falseWords) false c.utc
  zone : s.Gives .zone (fun text zone? => text ≠ "" ∧ (atlas.named? text).isSome ∧
    zone? = some text) none c.zone?
  now : s.Gives .now (fun text now? => text ≠ "" ∧
    ∃ t, readInstant atlas.host text.toList = .ok t ∧ now? = some t) none c.now?
  width : s.Gives .width (fun text n => text ≠ "" ∧ Text.integer? text.toList = some n ∧ 0 ≤ n)
    defaultWidth c.width

/-- A setting that is read gives its field. -/
theorem gives_of_filled {β : Type} {read : String → Except ValueFault β} {b? : Option β}
    (h : readSetting (s.filled? x) read = .ok b?) (f : Option β → α)
    {reads : String → α → Prop}
    (hreads : ∀ text b, text ≠ "" → read text = .ok b → reads text (f (some b))) :
    s.Gives x reads (f none) (f b?) := by
  rcases readSetting_eq_ok_iff.mp h with ⟨hnone, rfl⟩ | ⟨text, b, htext, hread, rfl⟩
  · exact Or.inr ⟨filled?_eq_none_iff.mp hnone, rfl⟩
  · obtain ⟨heff, hne⟩ := filled?_eq_some_iff.mp htext
    exact Or.inl ⟨text, heff, hreads text b hne hread⟩

theorem reflects_of_load {c : Config} (h : Config.load atlas s = .ok c) :
    (∀ x, ¬s.Malformed atlas x) ∧ c.Reflects atlas s := by
  rcases load_cases atlas s with
    ⟨-, hload⟩ | ⟨hin, ⟨utc?, zone?, now?, width?, hutc, hzone, hnow, hwidth, hload⟩ | ⟨-, hload⟩⟩
  · rw [h] at hload
    cases hload
  · rw [h] at hload
    obtain rfl := Except.ok.inj hload
    have hreads : ∀ x, s.reads atlas x = true := by
      intro x
      cases x with
      | utc => exact isOk_iff.mpr ⟨utc?, hutc⟩
      | zone => exact isOk_iff.mpr ⟨zone?, hzone⟩
      | now => exact isOk_iff.mpr ⟨now?, hnow⟩
      | width => exact isOk_iff.mpr ⟨width?, hwidth⟩
    refine ⟨fun x hx => ?_, ?_, ?_, ?_, ?_⟩
    · rw [← reads_eq_false_iff hin, hreads x] at hx
      cases hx
    · rcases readSetting_eq_ok_iff.mp hutc with ⟨hnone, rfl⟩ | ⟨text, b, htext, hread, rfl⟩
      · refine Or.inr ⟨fun text htext => ?_, rfl⟩
        rw [text?_eq_some_iff.mpr htext] at hnone
        cases hnone
      · exact Or.inl ⟨text, text?_eq_some_iff.mp htext, switch_eq_ok_iff.mp hread⟩
    · refine gives_of_filled hzone id fun text name hne hread => ?_
      rw [knownZone] at hread
      split at hread
      · rename_i hknown
        obtain rfl := Except.ok.inj hread
        exact ⟨hne, hknown, rfl⟩
      · cases hread
    · refine gives_of_filled hnow id fun text t hne hread => ?_
      exact ⟨hne, t, instant_eq_ok_iff.mp hread, rfl⟩
    · refine gives_of_filled hwidth (fun n? => n?.getD defaultWidth) fun text n hne hread => ?_
      exact ⟨hne, width_eq_ok_iff.mp hread⟩
  · rw [h] at hload
    cases hload

/-! ## Independence -/

theorem Sources.Effective.unique {text' : String} (h : s.Effective x text)
    (h' : s.Effective x text') : text = text' := by
  rw [← text?_eq_some_iff] at h h'
  exact Option.some.inj (h.symm.trans h')

/-- The text of a setting decides what it gives, wherever else the sources differ. -/
theorem Sources.Gives.eq {s' : Sources} {reads : String → α → Prop} {default a a' : α}
    (h : s.Gives x reads default a) (h' : s'.Gives x reads default a')
    (htext : ∀ text, s.Effective x text ↔ s'.Effective x text)
    (hempty : ∀ a, reads "" a → a = default)
    (hreads : ∀ text a a', reads text a → reads text a' → a = a') : a = a' := by
  rcases h with ⟨text, heff, ha⟩ | ⟨hnone, rfl⟩
  · rcases h' with ⟨text', heff', ha'⟩ | ⟨hnone', rfl⟩
    · obtain rfl := heff'.unique ((htext text).mp heff)
      exact hreads text' a a' ha ha'
    · obtain rfl := hnone' text ((htext text).mp heff)
      exact hempty a ha
  · rcases h' with ⟨text', heff', ha'⟩ | ⟨-, rfl⟩
    · obtain rfl := hnone text' ((htext text').mpr heff')
      exact (hempty a' ha').symm
    · rfl

/-- A field depends on its own setting and on no other. -/
theorem Config.Reflects.independent {c c' : Config} {s' : Sources} (h : c.Reflects atlas s)
    (h' : c'.Reflects atlas s') :
    ((∀ text, s.Effective .utc text ↔ s'.Effective .utc text) → c.utc = c'.utc) ∧
    ((∀ text, s.Effective .zone text ↔ s'.Effective .zone text) → c.zone? = c'.zone?) ∧
    ((∀ text, s.Effective .now text ↔ s'.Effective .now text) → c.now? = c'.now?) ∧
    ((∀ text, s.Effective .width text ↔ s'.Effective .width text) → c.width = c'.width) := by
  refine ⟨fun htext => h.utc.eq h'.utc htext ?_ ?_, fun htext => h.zone.eq h'.zone htext ?_ ?_,
    fun htext => h.now.eq h'.now htext ?_ ?_, fun htext => h.width.eq h'.width htext ?_ ?_⟩
  · rintro b (⟨-, hword⟩ | ⟨rfl, -⟩)
    · exact absurd hword (by decide)
    · rfl
  · intro text b b' hb hb'
    exact Except.ok.inj ((switch_eq_ok_iff.mpr hb).symm.trans (switch_eq_ok_iff.mpr hb'))
  · rintro zone? ⟨hne, -⟩
    exact absurd rfl hne
  · rintro text _ _ ⟨-, -, rfl⟩ ⟨-, -, rfl⟩
    rfl
  · rintro now? ⟨hne, -⟩
    exact absurd rfl hne
  · rintro text _ _ ⟨-, t, ht, rfl⟩ ⟨-, t', ht', rfl⟩
    rw [ht] at ht'
    rw [Except.ok.inj ht']
  · rintro n ⟨hne, -⟩
    exact absurd rfl hne
  · rintro text n n' ⟨-, hn, -⟩ ⟨-, hn', -⟩
    exact Option.some.inj (hn.symm.trans hn')

/-- Widths are not negative, and zones are known. -/
theorem Config.Reflects.sound {c : Config} (h : c.Reflects atlas s) :
    0 ≤ c.width ∧ ∀ name, c.zone? = some name → (atlas.named? name).isSome := by
  obtain ⟨-, hzone, -, hwidth⟩ := h
  constructor
  · rcases hwidth with ⟨_, -, -, -, hnonneg⟩ | ⟨-, hdefault⟩
    · exact hnonneg
    · rw [hdefault]
      decide
  · intro name hname
    rcases hzone with ⟨text, -, -, hknown, hsome⟩ | ⟨-, hdefault⟩
    · obtain rfl := Option.some.inj (hname.symm.trans hsome)
      exact hknown
    · rw [hdefault] at hname
      cases hname

end Timespan
