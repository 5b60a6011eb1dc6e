/-
  The plain reading of texts. Characters are read one by one, blanks as blanks and all others as
  others, and what comes out stands for itself. So reading and tidying a text a second time changes
  nothing (`tidyPlain_tidyPlain`), a text comes out empty just when it is blank
  (`tidyPlain_eq_nil_iff`), and two texts with a space between them are read one by one
  (`tidyPlain_append_space`).
-/
import Timespan.Proofs.Text.Words

namespace Timespan.Text

/-! ## Characters -/

theorem isBlank_iff (c : Char) : isBlank c = true ↔
    (9 ≤ c.toNat ∧ c.toNat ≤ 13) ∨ (28 ≤ c.toNat ∧ c.toNat ≤ 32) ∨ c.toNat = 0x85 ∨
      c.toNat = 0xA0 ∨ c.toNat = 0x1680 ∨ (0x2000 ≤ c.toNat ∧ c.toNat ≤ 0x200A) ∨
      c.toNat = 0x2028 ∨ c.toNat = 0x2029 ∨ c.toNat = 0x202F ∨ c.toNat = 0x205F ∨
      c.toNat = 0x3000 := by
  simp only [isBlank, Bool.or_eq_true, Bool.and_eq_true, decide_eq_true_eq, beq_iff_eq, or_assoc]

theorem toNat_ofNat_of_ascii {n : Nat} (h : n < 128) : (Char.ofNat n).toNat = n := by
  have hvalid : n.isValidChar := Or.inl (by omega)
  have hchar : Char.ofNat n = Char.ofNatAux n hvalid := dif_pos hvalid
  rw [hchar]
  rfl

theorem plain_of_ascii {c : Char} (h : c.toNat < 128) : plain c = [c] := by
  simp only [plain]
  split_ifs <;> first | omega | rfl

theorem plain_ne_nil (c : Char) : plain c ≠ [] := by
  simp only [plain]
  split_ifs <;> exact List.cons_ne_nil _ _

/-- What a character is read as is ASCII and a blank just when the character is one, or else it is
    the character itself. -/
theorem mem_plain {c d : Char} (h : d ∈ plain c) :
    d.toNat < 128 ∧ (isBlank d = true ↔ isBlank c = true) ∨ plain c = [c] ∧ d = c := by
  have hhyphen : '-'.toNat = 45 := rfl
  have hless : '<'.toNat = 60 := rfl
  have hgreater : '>'.toNat = 62 := rfl
  have hspace : ' '.toNat = 32 := rfl
  rw [isBlank_iff, isBlank_iff]
  simp only [plain] at h ⊢
  split_ifs at h ⊢ with h1 h2 h3 h4 h5
  · obtain rfl := List.mem_singleton.mp h
    omega
  · rcases List.mem_pair.mp h with rfl | rfl <;> omega
  · rcases List.mem_pair.mp h with rfl | rfl <;> omega
  · obtain rfl := List.mem_singleton.mp h
    omega
  · have hd := toNat_ofNat_of_ascii (show c.toNat - 0xFEE0 < 128 by omega)
    rw [← List.mem_singleton.mp h] at hd
    omega
  · exact Or.inr ⟨rfl, List.mem_singleton.mp h⟩

theorem isBlank_of_mem_plain {c d : Char} (h : d ∈ plain c) : isBlank d = isBlank c := by
  rw [Bool.eq_iff_iff]
  rcases mem_plain h with ⟨-, hblank⟩ | ⟨-, rfl⟩
  · exact hblank
  · exact Iff.rfl

/-- What a character is read as stands for itself. -/
theorem plain_of_mem_plain {c d : Char} (h : d ∈ plain c) : plain d = [d] := by
  rcases mem_plain h with ⟨hascii, -⟩ | ⟨hplain, rfl⟩
  · exact plain_of_ascii hascii
  · exact hplain

/-! ## Texts -/

variable {cs : List Char}

theorem plain_of_mem_plainText {d : Char} (h : d ∈ plainText cs) : plain d = [d] := by
  obtain ⟨c, -, hd⟩ := List.mem_flatMap.mp h
  exact plain_of_mem_plain hd

@[simp] theorem plainText_append (xs ys : List Char) :
    plainText (xs ++ ys) = plainText xs ++ plainText ys :=
  List.flatMap_append

/-- A text is read as blanks just when it is blank. -/
theorem plainText_blank_iff :
    (∀ d ∈ plainText cs, isBlank d = true) ↔ ∀ c ∈ cs, isBlank c = true := by
  constructor
  · intro h c hc
    obtain ⟨d, hd⟩ := List.exists_mem_of_ne_nil _ (plain_ne_nil c)
    rw [← isBlank_of_mem_plain hd]
    exact h d (List.mem_flatMap.mpr ⟨c, hc, hd⟩)
  · intro h d hd
    obtain ⟨c, hc, hd⟩ := List.mem_flatMap.mp hd
    rw [isBlank_of_mem_plain hd]
    exact h c hc

theorem tidyPlain_eq_nil_iff : tidyPlain cs = [] ↔ ∀ c ∈ cs, isBlank c = true := by
  rw [tidyPlain, tidy_eq_nil_iff, words_eq_nil_iff, plainText_blank_iff]

theorem plain_of_mem_tidyPlain {d : Char} (h : d ∈ tidyPlain cs) : plain d = [d] := by
  rcases mem_tidy h with rfl | hd
  · rfl
  · exact plain_of_mem_plainText hd

@[simp] theorem tidy_tidyPlain (cs : List Char) : tidy (tidyPlain cs) = tidyPlain cs := tidy_tidy _

@[simp] theorem trim_tidyPlain (cs : List Char) : trim (tidyPlain cs) = tidyPlain cs := trim_tidy _

/-- Reading and tidying a text a second time changes nothing. -/
@[simp] theorem tidyPlain_tidyPlain (cs : List Char) : tidyPlain (tidyPlain cs) = tidyPlain cs := by
  rw [tidyPlain, plainText_of_plain fun _ hd => plain_of_mem_tidyPlain hd, tidy_tidyPlain]

theorem words_plainText_append_space (xs ys : List Char) :
    words (plainText (xs ++ ' ' :: ys)) = words (plainText xs) ++ words (plainText ys) := by
  have hspace : plainText (' ' :: ys) = ' ' :: plainText ys := rfl
  rw [plainText_append, hspace, words_append_blank _ _ (by decide)]

/-- Two texts with a space between them are read and tidied one by one. -/
theorem tidyPlain_append_space {xs ys : List Char} (hx : tidyPlain xs ≠ [])
    (hy : tidyPlain ys ≠ []) :
    tidyPlain (xs ++ ' ' :: ys) = tidyPlain xs ++ ' ' :: tidyPlain ys := by
  rw [tidyPlain, tidy, words_plainText_append_space,
    unwords_append (mt tidy_eq_nil_iff.mpr hx) (mt tidy_eq_nil_iff.mpr hy)]
  rfl

/-- So are any number of texts with single spaces between them. -/
theorem tidyPlain_unwords {xs : List (List Char)} (h : ∀ x ∈ xs, tidyPlain x ≠ []) :
    tidyPlain (unwords xs) = unwords (xs.map tidyPlain) := by
  induction xs with
  | nil => rfl
  | cons x xs ih =>
    obtain ⟨hx, hxs⟩ := List.forall_mem_cons.mp h
    cases xs with
    | nil => rw [unwords_singleton, List.map_singleton, unwords_singleton]
    | cons y ys =>
      have hrest : tidyPlain (unwords (y :: ys)) ≠ [] := by
        rw [ih hxs]
        exact unwords_ne_nil (hxs y List.mem_cons_self) _
      rw [unwords_cons x (List.cons_ne_nil _ _), tidyPlain_append_space hx hrest, ih hxs]
      exact (unwords_cons (tidyPlain x) (by simp)).symm

end Timespan.Text
