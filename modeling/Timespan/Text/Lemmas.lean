/-
  The words of a text that is cut at a blank are those of its two parts.
-/
import Timespan.Text.Blank

namespace Timespan.Text

theorem startsWord_append {xs ys : List Char} (h : xs ≠ []) :
    startsWord (xs ++ ys) = startsWord xs := by
  cases xs with
  | nil => exact absurd rfl h
  | cons c cs => rfl

theorem words_ne_nil {cs : List Char} (h : startsWord cs = true) : words cs ≠ [] := by
  cases cs with
  | nil => simp [startsWord] at h
  | cons c cs =>
    have hc : isBlank c = false := by simpa [startsWord] using h
    rw [words, if_neg (by simp [hc])]
    split
    · cases words cs <;> simp [extendFirst]
    · simp

theorem extendFirst_append {ws : List (List Char)} (h : ws ≠ []) (c : Char)
    (vs : List (List Char)) : extendFirst c (ws ++ vs) = extendFirst c ws ++ vs := by
  cases ws with
  | nil => exact absurd rfl h
  | cons w ws => rfl

theorem words_append_blank (xs ys : List Char) {b : Char} (h : isBlank b = true) :
    words (xs ++ b :: ys) = words xs ++ words ys := by
  induction xs with
  | nil => simp [words, h]
  | cons c xs ih =>
    rw [List.cons_append, words, words, ih]
    split
    · rfl
    · cases xs with
      | nil => simp [startsWord, h]
      | cons d xs =>
        rw [startsWord_append (by simp)]
        split
        · rename_i hd
          exact extendFirst_append (words_ne_nil hd) c _
        · simp

end Timespan.Text
