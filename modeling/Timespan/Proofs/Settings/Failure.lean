/-
  How loading settings fails. All that is malformed is named in one message, with nothing else named
  in it; but a present instant that is a reading of the host's clock can lie outside the calendar,
  and then no message is made and nothing is said of any setting (`load_outcomes`). Only readings
  of the first and the last day of the calendar are of this kind.
-/
import Timespan.Proofs.Clock.Gap
import Timespan.Proofs.Settings.Load
import Timespan.Proofs.Text.Words
import Timespan.Proofs.Timestamp.Read
import Timespan.Zone.Atlas

namespace Timespan

open Timespan.Calendar Timespan.Text

variable {host : Zone} {cs : List Char} {wall : Int}

/-! ## Readings that stray -/

/-- A text that is no number but a timestamp without an offset, which the clock of the host brings
    back to an instant outside the calendar. -/
structure Strays (host : Zone) (cs : List Char) (wall : Int) : Prop where
  not_looksNumeric : ¬ LooksNumeric cs
  read : Timestamp.read? (trim cs) = some ⟨wall, none⟩
  outside : host.searchInstant (wall / 1000) = .error .foundOutside

theorem ofSearch_eq_outsideCalendar_iff {fault : SearchFault} :
    InstantFault.ofSearch fault = .outsideCalendar ↔ fault = .foundOutside := by
  cases fault <;> simp [InstantFault.ofSearch]

theorem readInstant_eq_outsideCalendar_iff :
    readInstant host cs = .error .outsideCalendar ↔ ∃ wall, Strays host cs wall := by
  by_cases hnum : LooksNumeric cs
  · have hno : ¬ ∃ wall, Strays host cs wall := by
      rintro ⟨wall, h⟩
      exact h.not_looksNumeric hnum
    rw [readInstant_of_looksNumeric host hnum, iff_false_right hno]
    cases integer? (trim cs) <;> simp
  · rw [readInstant_of_not_looksNumeric host hnum]
    constructor
    · intro h
      cases hread : Timestamp.read? (trim cs) with
      | none => simp [hread] at h
      | some s =>
        obtain ⟨wall, offset?⟩ := s
        simp only [hread, mapError_eq_error_iff, ofSearch_eq_outsideCalendar_iff] at h
        obtain ⟨fault, hfault, rfl⟩ := h
        cases offset? with
        | none => exact ⟨wall, hnum, hread, hfault⟩
        | some offset => cases hfault
    · rintro ⟨wall, -, hread, houtside⟩
      simp only [hread, Timestamp.instant, houtside]
      rfl

/-- An offset of less than a day leads out of the calendar only from its first and its last day. -/
theorem Strays.near_end (h : Strays host cs wall) (hb : host.Bounded) :
    wall / 1000 < firstWall + dayMillis ∨ lastWall - dayMillis < wall / 1000 := by
  have houtside := h.outside
  rw [Zone.searchInstant] at houtside
  split at houtside
  · cases houtside
  · rename_i o ho
    dsimp only at houtside
    split at houtside
    · cases houtside
    · rename_i hout
      have hoffset := WallClock.offset?_bounded (c := .host host) rfl hb ho
      simp only [inCalendar, Bool.and_eq_true, decide_eq_true_eq] at hout
      simp only [dayMillis]
      omega

/-! ## The message -/

/-- A letter that stands in the key of a setting, in no other key, and nowhere else in the message
    about malformed settings. -/
def Setting.letter : Setting → Char
  | .utc => 'C'
  | .zone => 'Z'
  | .now => 'W'
  | .width => 'D'

theorem letter_mem_key_iff {x y : Setting} : x.letter ∈ y.key.toList ↔ x = y := by
  cases x <;> cases y <;> decide +kernel

/-- The message about malformed settings names these and no others. -/
theorem key_infix_message_iff {ss : List Setting} {message : String}
    (h : (SettingsFault.invalid ss).message? = some message) (x : Setting) :
    x.key.toList <:+: message.toList ↔ x ∈ ss := by
  have hfixed : x.letter ∉ "Invalid settings: ".toList ∧ x.letter ∉ ", ".toList ∧
      x.letter ∉ ". Fix them in the environment or the .env file.".toList := by
    cases x <;> decide +kernel
  obtain rfl := Option.some.inj h
  rw [String.toList_append, String.toList_append, String.toList_intercalate, List.map_map]
  constructor
  · intro hinfix
    have hletter := hinfix.mem (letter_mem_key_iff.mpr rfl)
    simp only [List.mem_append, hfixed.1, hfixed.2.2, false_or, or_false] at hletter
    obtain hsep | ⟨key, hkey, hletter⟩ := mem_intercalate hletter
    · exact absurd hsep hfixed.2.1
    · obtain ⟨y, hy, rfl⟩ := List.mem_map.mp hkey
      obtain rfl := letter_mem_key_iff.mp hletter
      exact hy
  · intro hx
    have hkey : (String.toList ∘ Setting.key) x ∈ ss.map (String.toList ∘ Setting.key) :=
      List.mem_map_of_mem hx
    exact (infix_intercalate hkey).trans (List.infix_append _ _ _)

/-! ## Loading -/

/-- What loading the settings can come to, whatever the file and the environment hold and whatever
    the zone of the host is. The present instant strays just when its text is a reading of the
    host's clock that names an instant outside the calendar; and this takes a reading of the first
    or the last day of the calendar. In all other cases there are settings as long as none is
    malformed, and else a message that names the malformed ones and no others. -/
theorem load_outcomes (atlas : Atlas) (s : Sources) :
    (Config.load atlas s = .error .outsideCalendar ↔
      ∃ text wall, s.Effective .now text ∧ Strays atlas.host text.toList wall) ∧
    (Config.load atlas s ≠ .error .outsideCalendar →
      ((∀ x, ¬ s.Malformed atlas x) → ∃ c, Config.load atlas s = .ok c) ∧
      ((∃ x, s.Malformed atlas x) → ∃ ss message, Config.load atlas s = .error (.invalid ss) ∧
        (SettingsFault.invalid ss).message? = some message ∧
        ∀ x : Setting, x.key.toList <:+: message.toList ↔ s.Malformed atlas x)) ∧
    (atlas.host.Bounded → ∀ text wall, Strays atlas.host text wall →
      wall / 1000 < firstWall + dayMillis ∨ lastWall - dayMillis < wall / 1000) := by
  refine ⟨?_, fun hin => ?_, fun hb text wall h => h.near_end hb⟩
  · rw [load_eq_outsideCalendar_iff]
    constructor
    · rintro ⟨text, heff, -, hread⟩
      obtain ⟨wall, h⟩ := readInstant_eq_outsideCalendar_iff.mp hread
      exact ⟨text, wall, heff, h⟩
    · rintro ⟨text, wall, heff, h⟩
      refine ⟨text, heff, ?_, readInstant_eq_outsideCalendar_iff.mpr ⟨wall, h⟩⟩
      rintro rfl
      have hempty : Timestamp.read? (trim "".toList) = none := by decide +kernel
      exact absurd (hempty.symm.trans h.read) nofun
  · cases hload : Config.load atlas s with
    | ok c =>
      obtain ⟨hnone, -⟩ := reflects_of_load hload
      refine ⟨fun _ => ⟨c, rfl⟩, ?_⟩
      rintro ⟨x, hx⟩
      exact absurd hx (hnone x)
    | error fault =>
      cases fault with
      | outsideCalendar => exact absurd hload hin
      | invalid ss =>
        obtain ⟨-, ⟨y, hy⟩, hmem⟩ := mem_of_load_eq_invalid hload
        refine ⟨fun hnone => absurd hy (hnone y), fun _ => ⟨ss, _, rfl, rfl, fun x => ?_⟩⟩
        rw [key_infix_message_iff rfl, hmem]

/-- The last evening of the calendar on a clock that is twelve hours behind UTC. Nothing is said of
    it, nor of the zone that nobody knows. -/
theorem load_last_evening :
    Config.load (Atlas.ofHost "<-12>12")
        ⟨[("TIME_RANGE_TZ", "Mars")], Assignments.read "TIME_RANGE_NOW=9999-12-31T20:00\n"⟩ =
      .error .outsideCalendar ∧
    SettingsFault.outsideCalendar.message? = none := by
  refine ⟨?_, rfl⟩
  decide +kernel

end Timespan
