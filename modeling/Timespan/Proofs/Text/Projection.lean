/-
  Normal forms. Reading a text plainly and tidying it is a projection onto the texts without
  look-alikes in which single spaces, and no other blanks, stand between words (`IsNormal`). These
  are the texts that it leaves as they are, and it comes to them in one step; it empties a text just
  when there are blanks only, and goes along with putting texts one after the other
  (`tidyPlain_projection`).
-/
import Timespan.Proofs.Text.Plain

namespace Timespan.Text

variable {c b : Char} {cs ds : List Char}

/-! ## Look-alikes -/

/-- The dash variants, the arrows, and the full-width forms with their space. -/
def IsLookalike (c : Char) : Prop :=
  c ∈ ['\u2012', '\u2013', '\u2014', '\u2212', '\uFF0D'] ∨ c ∈ ['\u2192', '\u27F6', '\u2194'] ∨
    '\uFF01' ≤ c ∧ c ≤ '\uFF5E' ∨ c = '\u3000'

instance (c : Char) : Decidable (IsLookalike c) := inferInstanceAs (Decidable (_ ∨ _ ∨ _ ∨ _))

theorem isLookalike_iff (c : Char) : IsLookalike c ↔
    c.toNat = 0x2012 ∨ c.toNat = 0x2013 ∨ c.toNat = 0x2014 ∨ c.toNat = 0x2212 ∨
      c.toNat = 0x2192 ∨ c.toNat = 0x27F6 ∨ c.toNat = 0x2194 ∨ c.toNat = 0x3000 ∨
      0xFF01 ≤ c.toNat ∧ c.toNat ≤ 0xFF5E := by
  have hle : '\uFF01' ≤ c ∧ c ≤ '\uFF5E' ↔ 0xFF01 ≤ c.toNat ∧ c.toNat ≤ 0xFF5E := by
    simp only [Char.le_def, UInt32.le_iff_toNat_le]
    exact Iff.rfl
  have hdashes : c ∈ ['\u2012', '\u2013', '\u2014', '\u2212', '\uFF0D'] ↔
      c.toNat = 0x2012 ∨ c.toNat = 0x2013 ∨ c.toNat = 0x2014 ∨ c.toNat = 0x2212 ∨
        c.toNat = 0xFF0D := by
    simp only [List.mem_cons, List.not_mem_nil, or_false, ← Char.toNat_inj]
    exact Iff.rfl
  have harrows : c ∈ ['\u2192', '\u27F6', '\u2194'] ↔
      c.toNat = 0x2192 ∨ c.toNat = 0x27F6 ∨ c.toNat = 0x2194 := by
    simp only [List.mem_cons, List.not_mem_nil, or_false, ← Char.toNat_inj]
    exact Iff.rfl
  have hspace : c = '\u3000' ↔ c.toNat = 0x3000 := by
    rw [← Char.toNat_inj]
    exact Iff.rfl
  rw [IsLookalike, hle, hdashes, harrows, hspace]
  omega

/-- All characters but the look-alikes stand for themselves. -/
theorem plain_eq_self_iff : plain c = [c] ↔ ¬ IsLookalike c := by
  have hhyphen : '-'.toNat = 45 := rfl
  have hspace : ' '.toNat = 32 := rfl
  rw [isLookalike_iff]
  simp only [plain]
  split_ifs with h1 h2 h3 h4 h5
  · refine iff_of_false (fun h => ?_) (by omega)
    obtain rfl := List.singleton_inj.mp h
    omega
  · exact iff_of_false (by simp) (by omega)
  · exact iff_of_false (by simp) (by omega)
  · refine iff_of_false (fun h => ?_) (by omega)
    obtain rfl := List.singleton_inj.mp h
    omega
  · refine iff_of_false (fun h => ?_) (by omega)
    have hc := toNat_ofNat_of_ascii (show c.toNat - 0xFEE0 < 128 by omega)
    rw [List.singleton_inj.mp h] at hc
    omega
  · exact iff_of_true rfl (by omega)

/-! ## Single spaces -/

/-- Words with a single space between them, and no other blanks. -/
structure IsTidy (cs : List Char) : Prop where
  blank : ∀ c ∈ cs, isBlank c = true → c = ' '
  single : ¬ [' ', ' '] <:+: cs
  first : cs.head? ≠ some ' '
  last : cs.getLast? ≠ some ' '

theorem words_cons_blank (hb : isBlank b = true) (cs : List Char) : words (b :: cs) = words cs := by
  rw [words, if_pos hb]

theorem tidy_cons_blank (hb : isBlank b = true) (cs : List Char) : tidy (b :: cs) = tidy cs :=
  congrArg unwords (words_cons_blank hb cs)

theorem unwords_extendFirst (c : Char) (ws : List (List Char)) :
    unwords (extendFirst c ws) = c :: unwords ws := by
  rcases ws with - | ⟨w, - | ⟨v, vs⟩⟩ <;> rfl

/-- A character in front of a word joins it. -/
theorem tidy_cons_of_startsWord (hc : isBlank c = false) (h : startsWord cs = true) :
    tidy (c :: cs) = c :: tidy cs := by
  rw [tidy, words, if_neg (by simp [hc]), if_pos h, unwords_extendFirst, tidy]

/-- A character in front of a blank is a word. -/
theorem words_cons_gap (hc : isBlank c = false) (hb : isBlank b = true) (cs : List Char) :
    words (c :: b :: cs) = [c] :: words cs := by
  have hcut := words_append_blank [c] cs hb
  rw [words_of_not_blank (by simpa using hc) (List.cons_ne_nil c [])] at hcut
  exact hcut

theorem tidy_cons_gap (hc : isBlank c = false) (hb : isBlank b = true) (h : words cs ≠ []) :
    tidy (c :: b :: cs) = c :: ' ' :: tidy cs := by
  rw [tidy, words_cons_gap hc hb, unwords_cons _ h, List.singleton_append, tidy]

/-- Tidying makes no text longer. The induction takes two characters at once, so that a blank after
    a word is met together with it: the space in its place is there only if a word follows. -/
theorem length_tidy_le : ∀ cs : List Char, (tidy cs).length ≤ cs.length
  | [] => Nat.le_refl 0
  | [c] => by
    by_cases hc : isBlank c = true
    · rw [tidy_cons_blank hc]
      exact Nat.zero_le 1
    · rw [tidy, words_of_not_blank (by simpa using hc) (by simp), unwords_singleton]
  | c :: d :: cs => by
    have hnext := length_tidy_le (d :: cs)
    have hrest := length_tidy_le cs
    by_cases hc : isBlank c = true
    · rw [tidy_cons_blank hc, List.length_cons]
      omega
    · have hc := eq_false_of_ne_true hc
      by_cases hd : isBlank d = true
      · by_cases hwords : words cs = []
        · rw [tidy, words_cons_gap hc hd, hwords, unwords_singleton]
          simp
        · rw [tidy_cons_gap hc hd hwords]
          simp only [List.length_cons]
          omega
      · rw [tidy_cons_of_startsWord hc (by simp [startsWord, hd])]
        simp only [List.length_cons] at hnext ⊢
        omega

/-- A text is not tidy if a shorter one has the same words. -/
theorem tidy_ne_self (ds : List Char) (h : words cs = words ds) (hlt : ds.length < cs.length) :
    tidy cs ≠ cs := by
  intro hcs
  have hle := length_tidy_le ds
  rw [tidy, ← h, ← tidy, hcs] at hle
  omega

theorem isTidy_of_tidy_eq_self (h : tidy cs = cs) : IsTidy cs := by
  have hspace : isBlank ' ' = true := by decide
  constructor
  case blank =>
    intro c hc hblank
    rw [← h] at hc
    rcases mem_unwords hc with hc | hc
    · exact hc
    · rw [flatten_words, squeeze, List.mem_filter, hblank] at hc
      cases hc.2
  -- in the other cases a space could be left out, and the words would be the same
  case single =>
    rintro ⟨xs, ys, rfl⟩
    refine tidy_ne_self (xs ++ ' ' :: ys) ?_ (by simp) h
    rw [List.append_assoc, List.cons_append, words_append_blank _ _ hspace, List.singleton_append,
      words_cons_blank hspace, words_append_blank _ _ hspace]
  case first =>
    intro hfirst
    obtain ⟨ds, rfl⟩ := List.head?_eq_some_iff.mp hfirst
    exact tidy_ne_self ds (words_cons_blank hspace ds) (by simp) h
  case last =>
    intro hlast
    obtain ⟨ds, rfl⟩ := List.getLast?_eq_some_iff.mp hlast
    refine tidy_ne_self ds ?_ (by simp) h
    rw [words_append_blank _ _ hspace, words, List.append_nil]

/-- What is left of a tidy text is tidy, unless it starts with a space. -/
theorem IsTidy.of_append (xs : List Char) (h : IsTidy (xs ++ cs)) (hfirst : cs.head? ≠ some ' ') :
    IsTidy cs := by
  refine ⟨fun c hc => h.blank c (List.mem_append_right _ hc), fun htwo => ?_, hfirst,
    fun hlast => ?_⟩
  · exact h.single (htwo.trans (List.suffix_append _ _).isInfix)
  · exact h.last (by rw [List.getLast?_append, hlast]; rfl)

/-- A tidy text starts with a word, if it is not empty. -/
theorem IsTidy.head_not_blank (h : IsTidy (c :: cs)) : isBlank c = false := by
  apply eq_false_of_ne_true
  intro hblank
  exact h.first (by rw [h.blank c List.mem_cons_self hblank]; rfl)

/-- After a space in a tidy text a word begins. -/
theorem IsTidy.of_gap (h : IsTidy (c :: ' ' :: cs)) : IsTidy cs ∧ words cs ≠ [] := by
  have hrest : IsTidy cs := by
    refine IsTidy.of_append [c, ' '] h fun hfirst => ?_
    obtain ⟨ds, rfl⟩ := List.head?_eq_some_iff.mp hfirst
    exact h.single ⟨[c], ds, rfl⟩
  refine ⟨hrest, words_ne_nil ?_⟩
  cases cs with
  | nil => exact absurd rfl h.last
  | cons d cs => simp [startsWord, hrest.head_not_blank]

/-- A tidy text is put together again from its words, from one space to the next. -/
theorem IsTidy.tidy_eq_self : ∀ {cs : List Char}, IsTidy cs → tidy cs = cs
  | [], _ => rfl
  | [c], h => by
    have hword := words_of_not_blank (by simpa using h.head_not_blank) (List.cons_ne_nil c [])
    rw [tidy, hword, unwords_singleton]
  | c :: d :: cs, h => by
    have hc := h.head_not_blank
    by_cases hd : isBlank d = true
    · obtain rfl := h.blank d (by simp) hd
      obtain ⟨hrest, hne⟩ := h.of_gap
      rw [tidy_cons_gap hc hd hne, hrest.tidy_eq_self]
    · have hrest : IsTidy (d :: cs) := by
        refine IsTidy.of_append [c] h ?_
        rintro ⟨⟩
        exact hd (by decide)
      rw [tidy_cons_of_startsWord hc (by simp [startsWord, hd]), hrest.tidy_eq_self]

theorem tidy_eq_self_iff : tidy cs = cs ↔ IsTidy cs :=
  ⟨isTidy_of_tidy_eq_self, IsTidy.tidy_eq_self⟩

/-! ## Normal forms -/

/-- A tidy text without look-alikes. -/
structure IsNormal (cs : List Char) : Prop extends IsTidy cs where
  plain : ∀ c ∈ cs, ¬ IsLookalike c

theorem tidyPlain_eq_self_iff : tidyPlain cs = cs ↔ IsNormal cs := by
  constructor
  · intro h
    refine ⟨tidy_eq_self_iff.mp ?_, fun c hc => plain_eq_self_iff.mp ?_⟩
    · rw [← h, tidy_tidyPlain]
    · rw [← h] at hc
      exact plain_of_mem_tidyPlain hc
  · intro h
    rw [tidyPlain, plainText_of_plain fun c hc => plain_eq_self_iff.mpr (h.plain c hc)]
    exact h.toIsTidy.tidy_eq_self

/-- Of two texts with a space between them, those that are not blank are read each by itself. -/
theorem tidyPlain_append (xs ys : List Char) :
    tidyPlain (xs ++ ' ' :: ys) = unwords ([tidyPlain xs, tidyPlain ys].filter (· ≠ [])) := by
  by_cases hx : tidyPlain xs = []
  · have hright : tidyPlain (xs ++ ' ' :: ys) = tidyPlain ys := by
      rw [tidyPlain, tidy, words_plainText_append_space, tidy_eq_nil_iff.mp hx, List.nil_append]
      rfl
    by_cases hy : tidyPlain ys = []
    · simp [hright, hx, hy, unwords]
    · simp [hright, hx, hy]
  · by_cases hy : tidyPlain ys = []
    · have hleft : tidyPlain (xs ++ ' ' :: ys) = tidyPlain xs := by
        rw [tidyPlain, tidy, words_plainText_append_space, tidy_eq_nil_iff.mp hy, List.append_nil]
        rfl
      simp [hleft, hx, hy]
    · simp [tidyPlain_append_space hx hy, hx, hy, unwords]

/-- Reading a text plainly and tidying it is a projection onto the normal forms. It empties just the
    blank texts, and of two texts with a space between them it reads each by itself. -/
theorem tidyPlain_projection :
    (∀ xs, tidyPlain (tidyPlain xs) = tidyPlain xs) ∧
    (∀ xs, tidyPlain xs = xs ↔ IsNormal xs) ∧
    (∀ xs, tidyPlain xs = [] ↔ ∀ c ∈ xs, isBlank c = true) ∧
    ∀ xs ys, tidyPlain (xs ++ ' ' :: ys) =
      unwords ([tidyPlain xs, tidyPlain ys].filter (· ≠ [])) :=
  ⟨tidyPlain_tidyPlain, fun _ => tidyPlain_eq_self_iff, fun _ => tidyPlain_eq_nil_iff,
    tidyPlain_append⟩

/-- Full-width digits, a dash, an arrow and blanks of several kinds. -/
theorem tidyPlain_projection_wide :
    tidyPlain (tidyPlain "\u3000２０１０–０３\t".toList) =
      tidyPlain "\u3000２０１０–０３\t".toList ∧
    IsNormal "2010-03 <> 2days".toList ∧ ¬ IsNormal "2010-03 <>  2days".toList ∧
    ¬ IsNormal "2010–03".toList ∧ tidyPlain ['\u3000', '\t'] = [] ∧
    tidyPlain ("\u3000２０１０–０３\t".toList ++ ' ' :: "↔\u20032days".toList) =
      "2010-03 <> 2days".toList := by
  obtain ⟨hagain, hnormal, hblank, happend⟩ := tidyPlain_projection
  refine ⟨hagain _, (hnormal _).mp ?_, mt (hnormal _).mpr ?_, mt (hnormal _).mpr ?_,
    (hblank _).mpr ?_, ?_⟩
  · decide +kernel
  · decide +kernel
  · decide +kernel
  · exact List.forall_mem_cons.mpr ⟨rfl, List.forall_mem_singleton.mpr rfl⟩
  · rw [happend]
    decide +kernel

end Timespan.Text
