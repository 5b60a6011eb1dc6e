/-
  Words and spacing. The words of a text are read back from the tidy text (`words_tidy`), so tidying
  is done once and for all, and cutting, trimming and tidying go along with every change of
  characters that keeps the blanks (`words_map`, `trim_map`, `tidy_map`).
-/
import Timespan.Proofs.Text.Normal
import Mathlib.Data.List.DropRight

namespace Timespan.Text

/-- A run of characters without blanks that holds at least one. -/
def IsWord (w : List Char) : Prop := w ≠ [] ∧ ∀ c ∈ w, isBlank c = false

variable {cs : List Char}

theorem isWord_extendFirst {c : Char} (hc : isBlank c = false) {ws : List (List Char)}
    (h : ∀ w ∈ ws, IsWord w) : ∀ w ∈ extendFirst c ws, IsWord w := by
  cases ws with
  | nil =>
    intro w hw
    obtain rfl := List.mem_singleton.mp hw
    exact ⟨List.cons_ne_nil _ _, by simpa using hc⟩
  | cons v vs =>
    obtain ⟨hv, hvs⟩ := List.forall_mem_cons.mp h
    have hword : IsWord (c :: v) := ⟨List.cons_ne_nil _ _, List.forall_mem_cons.mpr ⟨hc, hv.2⟩⟩
    exact List.forall_mem_cons.mpr ⟨hword, hvs⟩

theorem isWord_of_mem_words : ∀ w ∈ words cs, IsWord w := by
  induction cs with
  | nil => simp [words]
  | cons c cs ih =>
    rw [words]
    split
    · exact ih
    · rename_i hc
      have hc := eq_false_of_ne_true hc
      split
      · exact isWord_extendFirst hc ih
      · exact List.forall_mem_cons.mpr ⟨⟨List.cons_ne_nil _ _, by simpa using hc⟩, ih⟩

theorem words_eq_nil_iff : words cs = [] ↔ ∀ c ∈ cs, isBlank c = true := by
  induction cs with
  | nil => simp [words]
  | cons c cs ih =>
    rw [words, List.forall_mem_cons, ← ih]
    split
    · rename_i hc
      simp [hc]
    · rename_i hc
      refine iff_of_false ?_ (fun h => hc h.1)
      split
      · cases words cs <;> simp [extendFirst]
      · exact List.cons_ne_nil _ _

/-- The words hold all characters of the text but its blanks. -/
theorem flatten_words (cs : List Char) : (words cs).flatten = squeeze cs := by
  induction cs with
  | nil => rfl
  | cons c cs ih =>
    rw [words]
    by_cases hc : isBlank c = true
    · rw [if_pos hc, ih]
      simp [squeeze, hc]
    · have hkeep : squeeze (c :: cs) = c :: squeeze cs := by simp [squeeze, hc]
      rw [if_neg hc, hkeep, ← ih]
      split
      · cases words cs <;> rfl
      · rfl

/-! ## Words joined by spaces -/

theorem unwords_cons (w : List Char) {ws : List (List Char)} (h : ws ≠ []) :
    unwords (w :: ws) = w ++ ' ' :: unwords ws := by
  cases ws with
  | nil => exact absurd rfl h
  | cons v vs => rw [unwords, List.intercalate_cons_cons, List.append_assoc]; rfl

@[simp] theorem unwords_singleton (w : List Char) : unwords [w] = w := List.intercalate_singleton

theorem unwords_ne_nil {w : List Char} (hw : w ≠ []) (ws : List (List Char)) :
    unwords (w :: ws) ≠ [] := by
  cases ws with
  | nil => rwa [unwords_singleton]
  | cons v vs =>
    rw [unwords_cons w (List.cons_ne_nil _ _)]
    exact List.append_ne_nil_of_left_ne_nil hw _

theorem unwords_append {ws vs : List (List Char)} (hw : ws ≠ []) (hv : vs ≠ []) :
    unwords (ws ++ vs) = unwords ws ++ ' ' :: unwords vs := by
  induction ws with
  | nil => exact absurd rfl hw
  | cons w ws ih =>
    rw [List.cons_append, unwords_cons w (by simp [hv])]
    cases ws with
    | nil => rw [unwords_singleton, List.nil_append]
    | cons u us =>
      rw [ih (List.cons_ne_nil _ _), unwords_cons w (List.cons_ne_nil _ _), List.append_assoc,
        List.cons_append]

/-- What is joined consists of the pieces and what stands between them. -/
theorem mem_intercalate {c : Char} {sep : List Char} {ws : List (List Char)}
    (h : c ∈ sep.intercalate ws) : c ∈ sep ∨ ∃ w ∈ ws, c ∈ w := by
  induction ws with
  | nil => cases h
  | cons w ws ih =>
    cases ws with
    | nil => exact Or.inr ⟨w, List.mem_cons_self, by simpa using h⟩
    | cons v vs =>
      rw [List.intercalate_cons_cons, List.mem_append, List.mem_append] at h
      rcases h with (h | h) | h
      · exact Or.inr ⟨w, List.mem_cons_self, h⟩
      · exact Or.inl h
      · obtain h | ⟨u, hu, h⟩ := ih h
        · exact Or.inl h
        · exact Or.inr ⟨u, List.mem_cons_of_mem _ hu, h⟩

theorem infix_intercalate {sep w : List Char} {ws : List (List Char)} (h : w ∈ ws) :
    w <:+: sep.intercalate ws := by
  induction ws with
  | nil => cases h
  | cons v ws ih =>
    cases ws with
    | nil => exact ⟨[], [], by simp [List.mem_singleton.mp h]⟩
    | cons u us =>
      rw [List.intercalate_cons_cons]
      rcases List.mem_cons.mp h with rfl | h
      · rw [List.append_assoc]
        exact (List.prefix_append _ _).isInfix
      · exact (ih h).trans (List.suffix_append _ _).isInfix

theorem mem_unwords {c : Char} {ws : List (List Char)} (h : c ∈ unwords ws) :
    c = ' ' ∨ c ∈ ws.flatten := by
  obtain h | ⟨w, hw, h⟩ := mem_intercalate h
  · exact Or.inl (List.mem_singleton.mp h)
  · exact Or.inr (List.mem_flatten_of_mem hw h)

theorem words_unwords {ws : List (List Char)} (h : ∀ w ∈ ws, IsWord w) :
    words (unwords ws) = ws := by
  induction ws with
  | nil => rfl
  | cons w ws ih =>
    obtain ⟨⟨hne, hw⟩, hws⟩ := List.forall_mem_cons.mp h
    cases ws with
    | nil => rw [unwords_singleton, words_of_not_blank hw hne]
    | cons v vs =>
      rw [unwords_cons w (List.cons_ne_nil _ _), words_append_blank _ _ (by decide),
        words_of_not_blank hw hne, ih hws]
      rfl

/-- The words of a text stand in the tidy text too. -/
@[simp] theorem words_tidy (cs : List Char) : words (tidy cs) = words cs :=
  words_unwords isWord_of_mem_words

@[simp] theorem tidy_tidy (cs : List Char) : tidy (tidy cs) = tidy cs :=
  congrArg unwords (words_tidy cs)

theorem tidy_eq_nil_iff : tidy cs = [] ↔ words cs = [] := by
  constructor
  · intro h
    rw [← words_tidy, h]
    rfl
  · intro h
    rw [tidy, h]
    rfl

/-- A tidy text has no characters but spaces and those of the text. -/
theorem mem_tidy {c : Char} (h : c ∈ tidy cs) : c = ' ' ∨ c ∈ cs := by
  refine (mem_unwords h).imp_right fun hc => ?_
  rw [flatten_words] at hc
  exact (List.mem_filter.mp hc).1

/-! ## Trimming -/

theorem trim_eq_nil_iff : trim cs = [] ↔ ∀ c ∈ cs, isBlank c = true := by
  rw [trim, trimEnd, ← List.rdropWhile, List.rdropWhile_eq_nil_iff]
  constructor
  · intro h
    induction cs with
    | nil => simp
    | cons c cs ih =>
      rw [trimStart, List.dropWhile_cons] at h
      split at h
      · rename_i hc
        exact List.forall_mem_cons.mpr ⟨hc, ih h⟩
      · rename_i hc
        exact absurd (h c List.mem_cons_self) hc
  · intro h c hc
    exact h c (List.dropWhile_subset _ hc)

theorem trim_cons_blank {b : Char} (hb : isBlank b = true) (cs : List Char) :
    trim (b :: cs) = trim cs := by
  rw [trim, trimStart, List.dropWhile_cons, if_pos hb]
  rfl

theorem trimEnd_append_blank {b : Char} (hb : isBlank b = true) (cs : List Char) :
    trimEnd (cs ++ [b]) = trimEnd cs := by
  rw [trimEnd, List.reverse_append, List.reverse_singleton, List.singleton_append,
    List.dropWhile_cons, if_pos hb]
  rfl

theorem trim_append_blank {b : Char} (hb : isBlank b = true) (cs : List Char) :
    trim (cs ++ [b]) = trim cs := by
  rw [trim, trim, trimStart, List.dropWhile_append]
  split
  · rename_i h
    rw [trimStart, List.isEmpty_iff.mp h, List.dropWhile_cons, if_pos hb]
    rfl
  · exact trimEnd_append_blank hb _

theorem trim_append_blanks {bs : List Char} (hb : ∀ b ∈ bs, isBlank b = true) (cs : List Char) :
    trim (cs ++ bs) = trim cs := by
  induction bs generalizing cs with
  | nil => rw [List.append_nil]
  | cons b bs ih =>
    obtain ⟨hb, hbs⟩ := List.forall_mem_cons.mp hb
    rw [List.append_cons, ih hbs, trim_append_blank hb]

@[simp] theorem trim_trimEnd (cs : List Char) : trim (trimEnd cs) = trim cs := by
  have hcut : cs = trimEnd cs ++ (cs.reverse.takeWhile isBlank).reverse := by
    rw [trimEnd, ← List.reverse_append, List.takeWhile_append_dropWhile, List.reverse_reverse]
  have hblank : ∀ b ∈ (cs.reverse.takeWhile isBlank).reverse, isBlank b = true := by
    intro b hb
    exact List.mem_takeWhile_imp (List.mem_reverse.mp hb)
  conv => rhs; rw [hcut]
  rw [trim_append_blanks hblank]

/-- The end of a text is not trimmed beyond a character that is no blank. -/
theorem trimEnd_append_cons {c : Char} (hc : isBlank c = false) (xs cs : List Char) :
    trimEnd (xs ++ c :: cs) = xs ++ c :: trimEnd cs := by
  have hstop : (c :: xs.reverse).dropWhile isBlank = c :: xs.reverse := by
    rw [List.dropWhile_cons, if_neg (by simp [hc])]
  rw [trimEnd, trimEnd, List.reverse_append, List.reverse_cons, List.append_assoc,
    List.singleton_append, List.dropWhile_append]
  split
  · rename_i hnil
    rw [hstop, List.isEmpty_iff.mp hnil]
    simp
  · simp

theorem IsWord.trimStart_append {w : List Char} (h : IsWord w) (cs : List Char) :
    trimStart (w ++ cs) = w ++ cs := by
  obtain ⟨hne, hw⟩ := h
  cases w with
  | nil => exact absurd rfl hne
  | cons c w => rw [trimStart, List.cons_append, List.dropWhile_cons, if_neg (by simp [hw])]

theorem IsWord.trimEnd_append {w : List Char} (h : IsWord w) (cs : List Char) :
    trimEnd (cs ++ w) = cs ++ w := by
  have hrev : IsWord w.reverse := ⟨by simpa using h.1, by simpa using h.2⟩
  have := hrev.trimStart_append cs.reverse
  rw [trimStart] at this
  rw [trimEnd, List.reverse_append, this, ← List.reverse_append, List.reverse_reverse]

theorem IsWord.trim_append {w : List Char} (h : IsWord w) (cs : List Char) :
    trim (cs ++ w) = trimStart cs ++ w := by
  have hstart : trimStart (cs ++ w) = trimStart cs ++ w := by
    have hw := h.trimStart_append []
    rw [List.append_nil] at hw
    rw [trimStart, List.dropWhile_append]
    split
    · rename_i hcs
      rw [← trimStart, hw, trimStart, List.isEmpty_iff.mp hcs, List.nil_append]
    · rfl
  rw [trim, hstart, h.trimEnd_append]

@[simp] theorem trim_trim (cs : List Char) : trim (trim cs) = trim cs := by
  -- what is trimmed at its end starts as it did before
  have hstart : trimStart (trim cs) = trim cs := by
    obtain ⟨tail, htail⟩ : trim cs <+: trimStart cs := List.rdropWhile_prefix isBlank _
    cases htrim : trim cs with
    | nil => rfl
    | cons c rest =>
      have hc := List.head?_dropWhile_not isBlank cs
      rw [← trimStart, ← htail, htrim, List.cons_append, List.head?_cons] at hc
      rw [trimStart, List.dropWhile_cons, if_neg (by simp [hc])]
  rw [trim, hstart]
  exact List.rdropWhile_idempotent isBlank _

theorem trim_isInfix (cs : List Char) : trim cs <:+: cs :=
  (List.rdropWhile_prefix isBlank (trimStart cs)).isInfix.trans
    (List.dropWhile_suffix isBlank).isInfix

theorem IsWord.infix_trimStart {w : List Char} (h : IsWord w) (hw : w <:+: cs) :
    w <:+: trimStart cs := by
  obtain ⟨xs, ys, rfl⟩ := hw
  rw [List.append_assoc, trimStart, List.dropWhile_append]
  split
  · rw [← trimStart, h.trimStart_append]
    exact (List.prefix_append w ys).isInfix
  · exact ⟨_, ys, List.append_assoc _ _ _⟩

/-- Trimming neither makes nor breaks a run of characters without blanks. -/
theorem IsWord.infix_trim_iff {w : List Char} (h : IsWord w) : w <:+: trim cs ↔ w <:+: cs := by
  refine ⟨fun hw => hw.trans (trim_isInfix cs), fun hw => ?_⟩
  have hrev : IsWord w.reverse := ⟨by simpa using h.1, by simpa using h.2⟩
  have hstart := List.reverse_infix.mpr (h.infix_trimStart hw)
  exact List.reverse_infix.mp (by simpa [trim, trimEnd, trimStart] using hrev.infix_trimStart hstart)

theorem trim_unwords {ws : List (List Char)} (h : ∀ w ∈ ws, IsWord w) :
    trim (unwords ws) = unwords ws := by
  have hstart : trimStart (unwords ws) = unwords ws := by
    cases ws with
    | nil => rfl
    | cons w ws =>
      have hw := h w List.mem_cons_self
      cases ws with
      | nil => rw [unwords_singleton, ← List.append_nil w, hw.trimStart_append]
      | cons v vs => rw [unwords_cons w (List.cons_ne_nil _ _), hw.trimStart_append]
  rw [trim, hstart]
  rcases List.eq_nil_or_concat ws with rfl | ⟨us, v, rfl⟩
  · rfl
  · have hv := h v (by simp)
    rw [List.concat_eq_append]
    cases us with
    | nil => rw [List.nil_append, unwords_singleton, ← List.nil_append v, hv.trimEnd_append]
    | cons u us =>
      rw [unwords_append (List.cons_ne_nil _ _) (List.cons_ne_nil _ _), unwords_singleton,
        List.append_cons, hv.trimEnd_append]

/-- A tidy text neither starts nor ends with a blank. -/
@[simp] theorem trim_tidy (cs : List Char) : trim (tidy cs) = tidy cs :=
  trim_unwords isWord_of_mem_words

/-! ## Changes of characters that keep the blanks -/

section

variable {f : Char → Char} (hf : ∀ c, isBlank (f c) = isBlank c)
include hf

theorem words_map (cs : List Char) : words (cs.map f) = (words cs).map (List.map f) := by
  induction cs with
  | nil => rfl
  | cons c cs ih =>
    have hstarts : startsWord (cs.map f) = startsWord cs := by
      cases cs with
      | nil => rfl
      | cons d ds => simp [startsWord, hf]
    rw [List.map_cons, words, words, hf, hstarts, ih]
    split
    · rfl
    · split
      · cases words cs <;> rfl
      · rfl

theorem trim_map (cs : List Char) : trim (cs.map f) = (trim cs).map f := by
  have hcomp : isBlank ∘ f = isBlank := funext hf
  simp only [trim, trimStart, trimEnd, List.dropWhile_map, ← List.map_reverse, hcomp]

omit hf in
theorem unwords_map (hspace : f ' ' = ' ') (ws : List (List Char)) :
    unwords (ws.map (List.map f)) = (unwords ws).map f := by
  induction ws with
  | nil => rfl
  | cons w ws ih =>
    cases ws with
    | nil => simp
    | cons v vs =>
      rw [List.map_cons, unwords_cons _ (by simp), ih, unwords_cons w (List.cons_ne_nil _ _),
        List.map_append, List.map_cons, hspace]

theorem tidy_map (hspace : f ' ' = ' ') (cs : List Char) : tidy (cs.map f) = (tidy cs).map f := by
  rw [tidy, words_map hf, unwords_map hspace]
  rfl

end

end Timespan.Text
