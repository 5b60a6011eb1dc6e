/-
  Texts that are already in normal form. A solid character, such as an ASCII digit, stands for
  itself whatever a text goes through: runs of solid characters come out of trimming, tidying,
  plain reading and lower case as they went in.
-/
import Timespan.Proofs.Text.Numeral
import Timespan.Text.LetterCase
import Timespan.Text.Lemmas
import Timespan.Text.Lookalike

namespace Timespan.Text

/-- No blank, no look-alike and no capital letter. -/
def Solid (c : Char) : Prop := isBlank c = false ∧ plain c = [c] ∧ lower c = c

instance (c : Char) : Decidable (Solid c) := inferInstanceAs (Decidable (_ ∧ _ ∧ _))

theorem solid_digitChar : ∀ d < 10, Solid (digitChar d) := by decide

theorem solid_of_isDigit {c : Char} (h : c.isDigit = true) : Solid c := by
  obtain ⟨d, hd, rfl⟩ := exists_digitChar h
  exact solid_digitChar d hd

theorem exists_letter {c : Char} (h : isLowerLetter c = true) :
    ∃ k < 26, c = Char.ofNat (0x61 + k) := by
  have hr : 97 ≤ c.toNat ∧ c.toNat ≤ 122 := by
    simp only [isLowerLetter, Bool.and_eq_true, decide_eq_true_eq, Char.le_def,
      UInt32.le_iff_toNat_le] at h
    exact h
  refine ⟨c.toNat - 97, by omega, ?_⟩
  rw [show 0x61 + (c.toNat - 97) = c.toNat by omega, Char.ofNat_toNat]

theorem solid_of_isLowerLetter {c : Char} (h : isLowerLetter c = true) : Solid c := by
  obtain ⟨k, hk, rfl⟩ := exists_letter h
  have hsolid : ∀ k < 26, Solid (Char.ofNat (0x61 + k)) := by decide
  exact hsolid k hk

theorem not_isDigit_of_isLowerLetter {c : Char} (h : isLowerLetter c = true) :
    isDigit c = false := by
  obtain ⟨k, hk, rfl⟩ := exists_letter h
  have hdigit : ∀ k < 26, isDigit (Char.ofNat (0x61 + k)) = false := by decide
  exact hdigit k hk

variable {cs : List Char}

theorem words_of_not_blank (h : ∀ c ∈ cs, isBlank c = false) (hne : cs ≠ []) : words cs = [cs] := by
  induction cs with
  | nil => exact absurd rfl hne
  | cons c cs ih =>
    obtain ⟨hc, hcs⟩ := List.forall_mem_cons.mp h
    rw [words, if_neg (by simp [hc])]
    cases cs with
    | nil => rfl
    | cons d ds =>
      rw [if_pos (by simp [startsWord, hcs d]), ih hcs (by simp)]
      rfl

theorem trim_of_not_blank (h : ∀ c ∈ cs, isBlank c = false) : trim cs = cs := by
  have hdrop : ∀ ds : List Char, (∀ c ∈ ds, isBlank c = false) → ds.dropWhile isBlank = ds := by
    intro ds hds
    cases ds with
    | nil => rfl
    | cons d ds => rw [List.dropWhile_cons, if_neg (by simp [hds d])]
  rw [trim, trimStart, hdrop cs h, trimEnd, hdrop _ (by simpa using h), List.reverse_reverse]

theorem plainText_of_plain (h : ∀ c ∈ cs, plain c = [c]) : plainText cs = cs := by
  induction cs with
  | nil => rfl
  | cons c cs ih =>
    obtain ⟨hc, hcs⟩ := List.forall_mem_cons.mp h
    rw [plainText, List.flatMap_cons, hc]
    exact congrArg (c :: ·) (ih hcs)

variable (h : ∀ c ∈ cs, Solid c)
include h

theorem tidy_of_solid : tidy cs = cs := by
  cases cs with
  | nil => rfl
  | cons c cs =>
    rw [tidy, words_of_not_blank (fun d hd => (h d hd).1) (by simp)]
    simp [unwords, List.intercalate]

omit h in
/-- Two texts of solid characters and a space between them are two words. -/
theorem tidy_of_solid_pair {ds : List Char} (hc : ∀ c ∈ cs, Solid c) (hd : ∀ d ∈ ds, Solid d)
    (hcne : cs ≠ []) (hdne : ds ≠ []) : tidy (cs ++ ' ' :: ds) = cs ++ ' ' :: ds := by
  rw [tidy, words_append_blank _ _ (by decide), words_of_not_blank (fun c hc' => (hc c hc').1) hcne,
    words_of_not_blank (fun d hd' => (hd d hd').1) hdne]
  simp [unwords, List.intercalate]

theorem plainText_of_solid : plainText cs = cs := plainText_of_plain fun c hc => (h c hc).2.1

theorem map_lower_of_solid : cs.map lower = cs := by
  rw [List.map_congr_left fun c hc => (h c hc).2.2, List.map_id']

end Timespan.Text
