/-
  The ends of a text and its lines. What is put around a text whose ends are bare is dropped again
  (`dropEnds_append`), be it blanks or quotes; and lines that are put one after the other, with a
  break between, are the lines of the text, but for an empty one that falls between a carriage
  return and a line feed (`lines_append`, `exists_lines_break`).
-/
import Timespan.Proofs.Text.Words
import Timespan.Text.Lines

namespace Timespan.Text

variable {p q : Char → Bool} {c : Char} {cs xs ys : List Char}

/-! ## The ends of a text -/

/-- A text without the characters of one kind at its two ends. -/
def dropEnds (p : Char → Bool) (cs : List Char) : List Char :=
  ((cs.dropWhile p).reverse.dropWhile p).reverse

/-- Neither the first nor the last character of a text is of the kind. -/
def BareEnds (p : Char → Bool) (cs : List Char) : Prop :=
  (∀ c, cs.head? = some c → p c = false) ∧ ∀ c, cs.getLast? = some c → p c = false

instance (p : Char → Bool) (cs : List Char) : Decidable (BareEnds p cs) :=
  decidable_of_iff (cs.head?.all (!p ·) = true ∧ cs.getLast?.all (!p ·) = true) (by
    simp [BareEnds, Option.all_eq_true])

theorem BareEnds.mono (h : BareEnds q cs) (hpq : ∀ c, q c = false → p c = false) :
    BareEnds p cs :=
  ⟨fun c hc => hpq c (h.1 c hc), fun c hc => hpq c (h.2 c hc)⟩

/-- Between two characters of another kind a text has bare ends. -/
theorem bareEnds_enclosed (h : p c = false) (cs : List Char) : BareEnds p (c :: (cs ++ [c])) := by
  constructor
  · intro d hd
    rwa [← Option.some.inj hd]
  · intro d hd
    rw [← List.cons_append, List.getLast?_concat] at hd
    rwa [← Option.some.inj hd]

theorem dropWhile_of_head? (h : ∀ c, cs.head? = some c → p c = false) : cs.dropWhile p = cs := by
  cases cs with
  | nil => rfl
  | cons c cs => rw [List.dropWhile_cons_of_neg (by simp [h c rfl])]

/-- What is put around a text with bare ends is dropped again. -/
theorem dropEnds_append (hxs : ∀ c ∈ xs, p c = true) (hys : ∀ c ∈ ys, p c = true)
    (h : BareEnds p cs) : dropEnds p (xs ++ (cs ++ ys)) = cs := by
  unfold dropEnds
  rw [List.dropWhile_append_of_pos hxs]
  cases cs with
  | nil =>
    rw [List.nil_append, List.dropWhile_eq_nil_iff.mpr hys]
    rfl
  | cons c cs =>
    have hend : ∀ d, (c :: cs).reverse.head? = some d → p d = false := by
      rw [List.head?_reverse]
      exact h.2
    have hys' : ∀ d ∈ ys.reverse, p d = true := fun d hd => hys d (List.mem_reverse.mp hd)
    rw [List.cons_append, List.dropWhile_cons_of_neg (by simp [h.1 c rfl]), ← List.cons_append,
      List.reverse_append, List.dropWhile_append_of_pos hys', dropWhile_of_head? hend,
      List.reverse_reverse]

theorem dropEnds_of_bareEnds (h : BareEnds p cs) : dropEnds p cs = cs := by
  have hnone : ∀ c ∈ ([] : List Char), p c = true := nofun
  simpa using dropEnds_append hnone hnone h

theorem trim_eq_dropEnds (cs : List Char) : trim cs = dropEnds isBlank cs := rfl

/-- Blanks in front are trimmed, up to the first character that is none. -/
theorem trim_append_cons (hxs : ∀ b ∈ xs, isBlank b = true) (hc : isBlank c = false)
    (cs : List Char) : trim (xs ++ c :: cs) = c :: trimEnd cs := by
  have hstart : trimStart (xs ++ c :: cs) = c :: cs := by
    rw [trimStart, List.dropWhile_append_of_pos hxs, List.dropWhile_cons_of_neg (by simp [hc])]
  rw [trim, hstart]
  exact trimEnd_append_cons hc [] cs

/-! ## Lines -/

/-- A text without line breaks. -/
def OneLine (cs : List Char) : Prop := ∀ c ∈ cs, isLineBreak c = false

instance (cs : List Char) : Decidable (OneLine cs) :=
  decidable_of_iff (cs.all (!isLineBreak ·) = true) (by simp [OneLine])

theorem OneLine.append (hx : OneLine xs) (hy : OneLine ys) : OneLine (xs ++ ys) :=
  List.forall_mem_append.mpr ⟨hx, hy⟩

theorem OneLine.cons (hc : isLineBreak c = false) (h : OneLine cs) : OneLine (c :: cs) :=
  List.forall_mem_cons.mpr ⟨hc, h⟩

theorem lines_cons (h : isLineBreak c = false) (cs : List Char) :
    lines (c :: cs) = extendFirst c (lines cs) := by
  rw [lines.eq_def]
  split
  · rename_i heq
    cases heq
  · rename_i heq
    rw [(List.cons.inj heq).1] at h
    exact absurd h (by decide)
  · rename_i heq
    obtain ⟨rfl, rfl⟩ := List.cons.inj heq
    rw [if_neg (by simp [h])]

/-- What stands before a break is the first line. -/
theorem lines_append {rest : List Char} {more : List (List Char)} (h : OneLine cs)
    (hrest : lines rest = [] :: more) : lines (cs ++ rest) = cs :: more := by
  induction cs with
  | nil => exact hrest
  | cons c cs ih =>
    obtain ⟨hc, hcs⟩ := List.forall_mem_cons.mp h
    rw [List.cons_append, lines_cons hc, ih hcs, extendFirst]

theorem lines_of_oneLine (h : OneLine cs) (hne : cs ≠ []) : lines cs = [cs] := by
  induction cs with
  | nil => exact absurd rfl hne
  | cons c cs ih =>
    obtain ⟨hc, hcs⟩ := List.forall_mem_cons.mp h
    rw [lines_cons hc]
    by_cases hnil : cs = []
    · rw [hnil]
      rfl
    · rw [ih hcs hnil, extendFirst]

/-- A break ends a line and, as far as anything is found that an empty line does not hold, leaves
    the lines behind it as they are. -/
theorem exists_lines_break {α : Type} {f : List Char → Option α} (hf : f [] = none)
    (h : isLineBreak c = true) (cs : List Char) :
    ∃ more, lines (c :: cs) = [] :: more ∧ more.filterMap f = (lines cs).filterMap f := by
  rw [lines.eq_def]
  split
  · rename_i heq
    cases heq
  · rename_i rest heq
    obtain ⟨rfl, rfl⟩ := List.cons.inj heq
    -- the line feed belongs to the break before it
    have hfeed : lines ('\n' :: rest) = [] :: lines rest := by
      rw [lines.eq_def]
      rfl
    exact ⟨lines rest, rfl, by rw [hfeed, List.filterMap_cons_none hf]⟩
  · rename_i heq
    obtain ⟨rfl, rfl⟩ := List.cons.inj heq
    rw [if_pos h]
    exact ⟨_, rfl, rfl⟩

end Timespan.Text
