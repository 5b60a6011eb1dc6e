/-
  The operators of a text. A scan from left to right takes an operator wherever it stands and goes
  on behind it (`Operator.scan`). A text is refused just when the scan finds two, and of a text that
  is read nothing is lost: the terms and the operator are its pieces, and written out again they
  are read as before (`Expression.read_scan`).
-/
import Timespan.Proofs.Expression.Write

namespace Timespan

namespace Operator

/-- The operators of a text in order. At each place the longer ones come first, and the scan goes on
    behind an operator, so that no character belongs to two. -/
def scan : List Char → List Operator
  | [] => []
  | '-' :: '>' :: cs => .arrow :: scan cs
  | '<' :: '>' :: cs => .around :: scan cs
  | '<' :: cs => .interval :: scan cs
  | _ :: cs => scan cs

variable {cs before after : List Char} {op : Operator}

/-- The scan goes on behind the first operator as it would from there. -/
theorem scan_eq (cs : List Char) :
    scan cs = (cut? cs).elim [] fun (_, op, after) => op :: scan after := by
  fun_induction cut? cs with
  | case1 => rfl
  | case2 cs => rfl
  | case3 cs => rfl
  | case4 cs hnext => rw [scan.eq_4 cs hnext]; rfl
  | case5 c cs harrow haround hless ih =>
    rw [scan.eq_5 c cs harrow haround hless, ih]
    cases cut? cs <;> rfl

theorem scan_eq_nil_iff : scan cs = [] ↔ cut? cs = none := by
  rw [scan_eq]
  cases cut? cs <;> simp

theorem scan_of_cut? (h : cut? cs = some (before, op, after)) : scan cs = op :: scan after := by
  rw [scan_eq, h]
  rfl

/-- A text that is cut is its pieces, and no operator stands in the first. -/
theorem cut?_eq_some (h : cut? cs = some (before, op, after)) :
    cs = before ++ op.token ++ after ∧ cut? before = none := by
  induction cs generalizing before with
  | nil => cases h
  | cons c cs ih =>
    rw [cut?_cons] at h
    cases hstart : atStart? (c :: cs) with
    | some op' =>
      rw [hstart] at h
      cases h
      obtain ⟨rest, hrest⟩ := token_isPrefix hstart
      refine ⟨?_, rfl⟩
      rw [← hrest, List.drop_left, List.nil_append]
    | none =>
      rw [hstart] at h
      obtain ⟨⟨before', op', after'⟩, hcut, hpieces⟩ := Option.map_eq_some_iff.mp h
      cases hpieces
      obtain ⟨hcs, hbefore⟩ := ih hcut
      refine ⟨congrArg (c :: ·) hcs, cut?_cons_eq_none_iff.mpr ⟨?_, hbefore⟩⟩
      -- a token at the start of the first piece stands at the start of the text
      rw [atStart?_eq_none_iff] at hstart ⊢
      intro op' hop
      refine hstart op' (hop.trans ⟨op.token ++ after, ?_⟩)
      rw [hcs, List.cons_append, List.append_assoc]

theorem isWord_token (op : Operator) : Text.IsWord op.token := by
  cases op <;> simp [Text.IsWord, token] <;> decide

/-- Blanks around a text neither make an operator nor hide one. -/
theorem cut?_trim_eq_none_iff : cut? (Text.trim cs) = none ↔ cut? cs = none := by
  simp only [cut?_eq_none_iff, (isWord_token _).infix_trim_iff]

end Operator

namespace Expression

variable {cs t : List Char} {op : Operator} {e : Expression}

theorem term?_eq_some_iff : term? cs = some t ↔ Text.trim cs = t ∧ t ≠ [] := by
  rw [term?]
  split
  · rename_i h
    rw [h]
    exact iff_of_false (by simp) fun ht => ht.2 ht.1.symm
  · rename_i hne
    rw [Option.some.injEq]
    exact ⟨fun h => ⟨h, h ▸ hne⟩, And.left⟩

theorem isTerm_of_term? (hcut : Operator.cut? cs = none) (h : term? cs = some t) : IsTerm t := by
  obtain ⟨rfl, hne⟩ := term?_eq_some_iff.mp h
  exact ⟨Text.trim_trim cs, hne, Operator.cut?_trim_eq_none_iff.mpr hcut⟩

/-! ## Reading by the scan -/

theorem read_of_scan_nil (h : Operator.scan cs = []) : read cs = .ok ⟨term? cs, none, none⟩ := by
  rw [read, Operator.scan_eq_nil_iff.mp h]

theorem read_of_scan_singleton (h : Operator.scan cs = [op]) :
    ∃ before after, cs = before ++ op.token ++ after ∧ Operator.cut? before = none ∧
      Operator.cut? after = none ∧ read cs = .ok ⟨term? before, some op, term? after⟩ := by
  cases hcut : Operator.cut? cs with
  | none =>
    rw [Operator.scan_eq_nil_iff.mpr hcut] at h
    cases h
  | some pieces =>
    obtain ⟨before, op', after⟩ := pieces
    rw [Operator.scan_of_cut? hcut] at h
    obtain ⟨rfl, hafter⟩ := List.cons.inj h
    obtain ⟨hcs, hbefore⟩ := Operator.cut?_eq_some hcut
    have hafter := Operator.scan_eq_nil_iff.mp hafter
    exact ⟨before, after, hcs, hbefore, hafter,
      read_of_cut hcut (Operator.cut?_trim_eq_none_iff.mpr hafter)⟩

theorem read_of_scan_two (h : 2 ≤ (Operator.scan cs).length) :
    read cs = .error (.ambiguousOperator (String.ofList cs)) := by
  cases hcut : Operator.cut? cs with
  | none =>
    rw [Operator.scan_eq_nil_iff.mpr hcut] at h
    exact absurd h (by decide)
  | some pieces =>
    obtain ⟨before, op, after⟩ := pieces
    rw [Operator.scan_of_cut? hcut, List.length_cons] at h
    have hafter : Operator.cut? (Text.trim after) ≠ none := by
      rw [Ne, Operator.cut?_trim_eq_none_iff, ← Operator.scan_eq_nil_iff]
      exact List.ne_nil_of_length_pos (by omega)
    rw [read, hcut]
    simp only [Option.isSome_iff_ne_none.mpr hafter, if_true]

/-- The scan finds no operator, one, or more. -/
theorem scan_cases (cs : List Char) :
    Operator.scan cs = [] ∨ (∃ op, Operator.scan cs = [op]) ∨ 2 ≤ (Operator.scan cs).length := by
  rcases Operator.scan cs with _ | ⟨op, _ | ⟨op', ops⟩⟩
  · exact Or.inl rfl
  · exact Or.inr (Or.inl ⟨op, rfl⟩)
  · exact Or.inr (Or.inr (by simp))

/-- What is read fits together, so that it can be written and read again. -/
theorem fits_of_read (h : read cs = .ok e) : e.Fits := by
  rcases scan_cases cs with hscan | ⟨op, hscan⟩ | hscan
  · rw [read_of_scan_nil hscan] at h
    cases h
    have hcut := Operator.scan_eq_nil_iff.mp hscan
    exact ⟨fun l hl => isTerm_of_term? hcut hl, nofun, fun _ => rfl⟩
  · obtain ⟨before, after, -, hbefore, hafter, hread⟩ := read_of_scan_singleton hscan
    rw [hread] at h
    cases h
    exact ⟨fun l hl => isTerm_of_term? hbefore hl, fun r hr => isTerm_of_term? hafter hr, nofun⟩
  · rw [read_of_scan_two hscan] at h
    cases h

/-- A text is refused just when a scan finds two operators in it. Without an operator it is a single
    term, with one it is the two terms around it, in neither of which a token stands. What is read
    is read again from its terms and its operator with single spaces between them. -/
theorem read_scan (cs : List Char) :
    (∀ cause, read cs = .error cause ↔
      2 ≤ (Operator.scan cs).length ∧ cause = .ambiguousOperator (String.ofList cs)) ∧
    (Operator.scan cs = [] → read cs = .ok ⟨term? cs, none, none⟩) ∧
    (∀ op, Operator.scan cs = [op] → ∃ before after, cs = before ++ op.token ++ after ∧
      read cs = .ok ⟨term? before, some op, term? after⟩ ∧
      ∀ t, term? before = some t ∨ term? after = some t →
        ∀ op' : Operator, ¬ op'.token <:+: t) ∧
    (∀ e, read cs = .ok e → read e.write = .ok e) := by
  refine ⟨fun cause => ⟨fun h => ?_, ?_⟩, read_of_scan_nil, fun op hscan => ?_,
    fun e h => read_write (fits_of_read h)⟩
  · rcases scan_cases cs with hscan | ⟨op, hscan⟩ | hscan
    · rw [read_of_scan_nil hscan] at h
      cases h
    · obtain ⟨before, after, -, -, -, hread⟩ := read_of_scan_singleton hscan
      rw [hread] at h
      cases h
    · rw [read_of_scan_two hscan] at h
      exact ⟨hscan, (Except.error.inj h).symm⟩
  · rintro ⟨hscan, rfl⟩
    exact read_of_scan_two hscan
  · obtain ⟨before, after, hcs, hbefore, hafter, hread⟩ := read_of_scan_singleton hscan
    refine ⟨before, after, hcs, hread, fun t ht => ?_⟩
    have hterm : IsTerm t := ht.elim (isTerm_of_term? hbefore) (isTerm_of_term? hafter)
    exact Operator.cut?_eq_none_iff.mp hterm.uncut

/-- A stray hyphen before the arrow and a stray `>` behind it stay with the terms, while `<->` holds
    two operators. -/
theorem read_scan_stray_signs :
    Operator.scan "2010-03 --> >2d ".toList = [.arrow] ∧
    (∃ before after, "2010-03 --> >2d ".toList = before ++ Operator.arrow.token ++ after ∧
      read "2010-03 --> >2d ".toList = .ok ⟨term? before, some .arrow, term? after⟩ ∧
      ∀ t, term? before = some t ∨ term? after = some t →
        ∀ op : Operator, ¬ op.token <:+: t) ∧
    read "2010-03 --> >2d ".toList =
      .ok ⟨some "2010-03 -".toList, some .arrow, some ">2d".toList⟩ ∧
    read (write ⟨some "2010-03 -".toList, some .arrow, some ">2d".toList⟩) =
      .ok ⟨some "2010-03 -".toList, some .arrow, some ">2d".toList⟩ ∧
    Operator.scan "1<->2".toList = [.interval, .arrow] ∧
    read "1<->2".toList = .error (.ambiguousOperator "1<->2") := by
  have hone : Operator.scan "2010-03 --> >2d ".toList = [.arrow] := by decide +kernel
  have htwo : Operator.scan "1<->2".toList = [.interval, .arrow] := by decide +kernel
  have hread : read "2010-03 --> >2d ".toList =
      .ok ⟨some "2010-03 -".toList, some .arrow, some ">2d".toList⟩ := by decide +kernel
  obtain ⟨-, -, hpieces, hagain⟩ := read_scan "2010-03 --> >2d ".toList
  obtain ⟨hrefused, -, -, -⟩ := read_scan "1<->2".toList
  refine ⟨hone, hpieces .arrow hone, hread, hagain _ hread, htwo, (hrefused _).mpr ⟨?_, ?_⟩⟩
  · rw [htwo]
    decide
  · rw [String.ofList_toList]

end Expression

end Timespan
