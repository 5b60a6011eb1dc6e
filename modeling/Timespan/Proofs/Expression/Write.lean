/-
  Expressions written out, their terms and operator with single spaces between them, are read back
  as they were (`read_write`). The text before the first operator ends where a term without an
  operator ends, whatever characters the term holds: hyphens and stray `>` do not join with the
  space that follows them.
-/
import Timespan.Proofs.Text.Words
import Timespan.Span
import Mathlib.Tactic.SplitIfs

namespace Timespan

/-! ## The first operator of a text -/

namespace Operator

/-- The operator with which a text starts. -/
def atStart? : List Char → Option Operator
  | [] => none
  | c :: cs =>
    if c = '<' then some (if cs.head? = some '>' then .around else .interval)
    else if c = '-' ∧ cs.head? = some '>' then some .arrow
    else none

/-- A text is cut at its start if an operator stands there, and else further on. -/
theorem cut?_cons (c : Char) (cs : List Char) :
    cut? (c :: cs) =
      match atStart? (c :: cs) with
      | some op => some ([], op, (c :: cs).drop op.token.length)
      | none => (cut? cs).map fun (before, op, after) => (c :: before, op, after) := by
  rw [cut?.eq_def]
  split
  · rename_i h
    cases h
  · rename_i h
    cases h
    rfl
  · rename_i h
    cases h
    rfl
  · rename_i rest hrest h
    cases h
    have hnext : cs.head? ≠ some '>' := fun h => by
      obtain ⟨rest, rfl⟩ := List.head?_eq_some_iff.mp h
      exact hrest rest rfl
    simp [atStart?, hnext, token]
  · rename_i harrow _ hless h
    cases h
    have hnext : ¬ (c = '-' ∧ cs.head? = some '>') := fun ⟨hc, h⟩ => by
      obtain ⟨rest, rfl⟩ := List.head?_eq_some_iff.mp h
      exact harrow rest hc rfl
    rw [atStart?, if_neg hless, if_neg hnext]

theorem cut?_cons_eq_none_iff {c : Char} {cs : List Char} :
    cut? (c :: cs) = none ↔ atStart? (c :: cs) = none ∧ cut? cs = none := by
  rw [cut?_cons]
  cases atStart? (c :: cs) <;> simp

theorem token_isPrefix {cs : List Char} {op : Operator} (h : atStart? cs = some op) :
    op.token <+: cs := by
  cases cs with
  | nil => cases h
  | cons c cs =>
    rw [atStart?] at h
    split_ifs at h with hless hnext hhyphen
    · obtain ⟨rest, rfl⟩ := List.head?_eq_some_iff.mp hnext
      cases h
      exact ⟨rest, by rw [hless]; rfl⟩
    · cases h
      exact ⟨cs, by rw [hless]; rfl⟩
    · obtain ⟨rest, rfl⟩ := List.head?_eq_some_iff.mp hhyphen.2
      cases h
      exact ⟨rest, by rw [hhyphen.1]; rfl⟩

theorem atStart?_eq_none_iff {cs : List Char} :
    atStart? cs = none ↔ ∀ op : Operator, ¬ op.token <+: cs := by
  constructor
  · rintro h op ⟨rest, rfl⟩
    cases op <;> simp [atStart?, token] at h
  · intro h
    rw [Option.eq_none_iff_forall_ne_some]
    intro op hstart
    exact h op (token_isPrefix hstart)

/-- A text is not cut just when no token stands in it. -/
theorem cut?_eq_none_iff {cs : List Char} :
    cut? cs = none ↔ ∀ op : Operator, ¬ op.token <:+: cs := by
  induction cs with
  | nil =>
    refine iff_of_true rfl fun op h => ?_
    cases op <;> exact absurd h (by decide)
  | cons c cs ih =>
    simp only [cut?_cons_eq_none_iff, ih, atStart?_eq_none_iff, List.infix_cons_iff, not_or,
      forall_and]

/-- Every token starts with a hyphen or a `<`. -/
theorem cut?_eq_none {cs : List Char} (h : ∀ c ∈ cs, c ≠ '-' ∧ c ≠ '<') : cut? cs = none := by
  rw [cut?_eq_none_iff]
  intro op hop
  cases op with
  | interval => exact (h '<' (hop.subset (by decide))).2 rfl
  | arrow => exact (h '-' (hop.subset (by decide))).1 rfl
  | around => exact (h '<' (hop.subset (by decide))).2 rfl

/-- A space after the first character changes nothing about the start of a text. -/
theorem atStart?_append_space (c : Char) (xs ys : List Char) :
    atStart? (c :: xs ++ ' ' :: ys) = atStart? (c :: xs) := by
  cases xs <;> simp [atStart?]

/-- After a text without an operator and a space, the first operator is that of the rest. -/
theorem cut?_append_space {xs : List Char} (h : cut? xs = none) (ys : List Char) :
    cut? (xs ++ ' ' :: ys) =
      (cut? ys).map fun (before, op, after) => (xs ++ ' ' :: before, op, after) := by
  induction xs with
  | nil => rw [List.nil_append, cut?_cons]; rfl
  | cons c xs ih =>
    obtain ⟨hstart, hrest⟩ := cut?_cons_eq_none_iff.mp h
    rw [List.cons_append, cut?_cons, ← List.cons_append, atStart?_append_space, hstart]
    simp only [ih hrest, Option.map_map]
    rfl

/-- An operator is the first of a text that starts with it, if the text ends there or goes on with a
    space. -/
theorem cut?_token (op : Operator) {cs : List Char} (h : cs.head? ≠ some '>') :
    cut? (op.token ++ cs) = some ([], op, cs) := by
  cases op with
  | interval =>
    rw [token, List.cons_append, List.nil_append, cut?_cons]
    simp [atStart?, h, token]
  | arrow => rfl
  | around => rfl

end Operator

/-! ## Writing -/

namespace Expression

/-- A text that can stand as a term: without an operator, not empty, and without blanks at its
    ends. -/
structure IsTerm (cs : List Char) : Prop where
  trimmed : Text.trim cs = cs
  nonempty : cs ≠ []
  uncut : Operator.cut? cs = none

/-- Terms that can stand as such, and the second only behind an operator. -/
structure Fits (e : Expression) : Prop where
  left : ∀ l, e.left? = some l → IsTerm l
  right : ∀ r, e.right? = some r → IsTerm r
  lone : e.operator? = none → e.right? = none

/-- The terms and the operator with single spaces between them. -/
def write (e : Expression) : List Char :=
  Text.unwords (e.left?.toList ++ (e.operator?.map Operator.token).toList ++ e.right?.toList)

variable {l r : List Char}

theorem IsTerm.term? (h : IsTerm l) : Expression.term? l = some l := by
  rw [Expression.term?, h.trimmed]
  have hne := h.nonempty
  split
  · contradiction
  · rfl

theorem read_of_term (h : IsTerm l) : read l = .ok ⟨some l, none, none⟩ := by
  rw [read, h.uncut]
  simp only [h.term?]

/-- What is read off a text around its first operator, if there is no other. -/
theorem read_of_cut {cs before after : List Char} {op : Operator}
    (hcut : Operator.cut? cs = some (before, op, after))
    (hafter : Operator.cut? (Text.trim after) = none) :
    read cs = .ok ⟨term? before, some op, term? after⟩ := by
  rw [read, hcut]
  simp only [hafter]
  rfl

/-- Around the operator of a written expression stand its terms, with the spaces between. -/
theorem cut?_write {left? : Option (List Char)} (hleft : ∀ l, left? = some l → IsTerm l)
    (op : Operator) (right? : Option (List Char)) :
    Operator.cut? (write ⟨left?, some op, right?⟩) =
      some (left?.elim [] (· ++ [' ']), op, right?.elim [] (' ' :: ·)) := by
  have hstart : Operator.cut? (write ⟨none, some op, right?⟩) =
      some ([], op, right?.elim [] (' ' :: ·)) := by
    have hwrite : write ⟨none, some op, right?⟩ = op.token ++ right?.elim [] (' ' :: ·) := by
      cases right? with
      | none => exact (Text.unwords_singleton _).trans (List.append_nil _).symm
      | some r =>
        show Text.unwords [op.token, r] = op.token ++ ' ' :: r
        rw [Text.unwords_cons _ (List.cons_ne_nil _ _), Text.unwords_singleton]
    rw [hwrite, Operator.cut?_token op (by cases right? <;> simp)]
  cases left? with
  | none => exact hstart
  | some l =>
    have hwrite : write ⟨some l, some op, right?⟩ = l ++ ' ' :: write ⟨none, some op, right?⟩ :=
      Text.unwords_cons _ (List.cons_ne_nil _ _)
    rw [hwrite, Operator.cut?_append_space (hleft l rfl).uncut, hstart]
    rfl

/-- A written expression is read back. -/
theorem read_write {e : Expression} (h : e.Fits) : read e.write = .ok e := by
  obtain ⟨left?, operator?, right?⟩ := e
  obtain ⟨hleft, hright, hlone⟩ := h
  cases operator? with
  | none =>
    obtain rfl : right? = none := hlone rfl
    cases left? with
    | none => rfl
    | some l =>
      have hwrite : write ⟨some l, none, none⟩ = l := Text.unwords_singleton l
      rw [hwrite, read_of_term (hleft l rfl)]
  | some op =>
    have hspace : Text.isBlank ' ' = true := rfl
    have hbefore : term? (left?.elim [] (· ++ [' '])) = left? := by
      cases left? with
      | none => rfl
      | some l =>
        rw [Option.elim_some, Expression.term?, Text.trim_append_blank hspace, ← Expression.term?,
          (hleft l rfl).term?]
    have hafter : term? (right?.elim [] (' ' :: ·)) = right? ∧
        Operator.cut? (Text.trim (right?.elim [] (' ' :: ·))) = none := by
      cases right? with
      | none => exact ⟨rfl, rfl⟩
      | some r =>
        have hr := hright r rfl
        rw [Option.elim_some, Expression.term?, Text.trim_cons_blank hspace, ← Expression.term?]
        exact ⟨hr.term?, hr.trimmed.symm ▸ hr.uncut⟩
    rw [read_of_cut (cut?_write hleft op right?) hafter.2, hbefore, hafter.1]

end Expression

end Timespan
