/-
  Numbers as decimal text. The text of an integer within the length bound is read back as that
  integer (`integer?_toString`), and zero-padded numbers stand in the order of their texts
  (`padded_append_lt_iff`).
-/
import Timespan.Proofs.Text.Normal

namespace Timespan.Text

variable {cs : List Char}

/-! ## Runs of digits -/

theorem digit?_of_isDigit {c : Char} (h : c.isDigit = true) :
    digit? c = some (c.toNat - '0'.toNat) := by
  obtain ⟨d, hd, rfl⟩ := exists_digitChar h
  have hvalue : ∀ d < 10, (digitChar d).toNat - '0'.toNat = d := by decide
  rw [digit?_digitChar d hd, hvalue d hd]

/-- A run of digits without underscores is read digit by digit. -/
theorem groupedDigits?_of_digits (h : ∀ c ∈ cs, c.isDigit = true) (hne : cs ≠ []) :
    groupedDigits? cs = some (cs.filterMap digit?) := by
  induction cs with
  | nil => exact absurd rfl hne
  | cons c cs ih =>
    obtain ⟨hc, hcs⟩ := List.forall_mem_cons.mp h
    have hd := digit?_of_isDigit hc
    cases cs with
    | nil => simp [groupedDigits?, hd]
    | cons e es =>
      have hgroup : e ≠ '_' := by
        rintro rfl
        exact absurd (hcs '_' List.mem_cons_self) (by decide)
      rw [groupedDigits?.eq_4 _ _ (by simp) (by simp [hgroup]), ih hcs (List.cons_ne_nil _ _), hd,
        List.filterMap_cons_some hd]
      rfl

theorem natural?_of_digits (h : ∀ c ∈ cs, c.isDigit = true) (hne : cs ≠ [])
    (hlen : cs.length ≤ maxDigits) : natural? cs = some (digitsValue cs) := by
  have hvalues : (cs.filterMap digit?).length ≤ maxDigits :=
    Nat.le_trans (List.length_filterMap_le _ _) hlen
  simp only [natural?, groupedDigits?_of_digits h hne, Option.bind_eq_bind, Option.bind_some,
    if_pos hvalues]
  rfl

theorem digitsValue_eq_ofDigitChars (h : ∀ c ∈ cs, c.isDigit = true) :
    digitsValue cs = Nat.ofDigitChars 10 cs 0 := by
  have hvalues : cs.filterMap digit? = cs.map fun c => c.toNat - '0'.toNat := by
    induction cs with
    | nil => rfl
    | cons c cs ih =>
      obtain ⟨hc, hcs⟩ := List.forall_mem_cons.mp h
      rw [List.filterMap_cons_some (digit?_of_isDigit hc), ih hcs, List.map_cons]
  rw [digitsValue, hvalues, ofDigits, List.foldl_map, Nat.ofDigitChars_eq_foldl]

theorem digitsValue_append {ds : List Char} (h : ∀ c ∈ cs, c.isDigit = true)
    (hd : ∀ c ∈ ds, c.isDigit = true) :
    digitsValue (cs ++ ds) = Nat.pow 10 ds.length * digitsValue cs + digitsValue ds := by
  have happend : ∀ c ∈ cs ++ ds, c.isDigit = true := fun c hc =>
    (List.mem_append.mp hc).elim (h c) (hd c)
  rw [digitsValue_eq_ofDigitChars happend, digitsValue_eq_ofDigitChars h,
    digitsValue_eq_ofDigitChars hd, Nat.ofDigitChars_append, Nat.ofDigitChars_eq_ofDigitChars_zero]
  rfl

theorem digitsValue_lt (cs : List Char) : digitsValue cs < Nat.pow 10 cs.length := by
  have hvalues : ∀ d ∈ cs.filterMap digit?, d < 10 := by
    intro d hd
    obtain ⟨c, -, hc⟩ := List.mem_filterMap.mp hd
    exact digit?_lt hc
  calc digitsValue cs
      < Nat.pow 10 (cs.filterMap digit?).length := ofDigits_lt hvalues
    _ ≤ Nat.pow 10 cs.length := Nat.pow_le_pow_right (by decide) (List.length_filterMap_le _ _)

/-! ## Decimal text -/

theorem isDigit_of_mem_toDigits {n : Nat} {c : Char} (h : c ∈ Nat.toDigits 10 n) :
    c.isDigit = true :=
  Nat.isDigit_of_mem_toDigits (by decide) (Nat.le_refl 10) h

theorem length_toDigits_le {n k : Nat} (hk : 0 < k) (h : n < Nat.pow 10 k) :
    (Nat.toDigits 10 n).length ≤ k :=
  (Nat.length_toDigits_le_iff (by decide) hk).mpr h

theorem natural?_toDigits {n : Nat} (h : n < Nat.pow 10 maxDigits) :
    natural? (Nat.toDigits 10 n) = some n := by
  have hlen := length_toDigits_le (by decide) h
  rw [natural?_of_digits (fun _ => isDigit_of_mem_toDigits) Nat.toDigits_ne_nil hlen,
    digitsValue_eq_ofDigitChars fun _ => isDigit_of_mem_toDigits, Nat.ofDigitChars_ten_toDigits]

/-- The decimal text of an integer is a run of digits, after a hyphen if it is negative. -/
theorem toList_toString (n : Int) :
    (toString n).toList = (if n < 0 then ['-'] else []) ++ Nat.toDigits 10 n.natAbs := by
  cases n with
  | ofNat m => exact Nat.toList_repr
  | negSucc m =>
    have hneg : Int.negSucc m < 0 := Int.negSucc_lt_zero m
    rw [if_pos hneg]
    show ("-" ++ Nat.repr (m + 1)).toList = _
    rw [String.toList_append, Nat.toList_repr]
    rfl

theorem solid_of_mem_toString {n : Int} {c : Char} (h : c ∈ (toString n).toList) : Solid c := by
  rw [toList_toString, List.mem_append] at h
  rcases h with h | h
  · split at h
    · rw [List.mem_singleton.mp h]
      decide
    · cases h
  · exact solid_of_isDigit (isDigit_of_mem_toDigits h)

theorem integer?_toString {n : Int} (h : writable n = true) :
    integer? (toString n).toList = some n := by
  have hnat := natural?_toDigits (of_decide_eq_true h)
  have htrim := trim_of_not_blank fun c (hc : c ∈ (toString n).toList) =>
    (solid_of_mem_toString hc).1
  rw [integer?, htrim, toList_toString]
  rcases Int.lt_or_le n 0 with hneg | hpos
  · rw [if_pos hneg, List.singleton_append]
    simp only [hnat, Option.bind_eq_bind, Option.bind_some, Option.pure_def, Option.map_some,
      Int.ofNat_natAbs_of_nonpos (Int.le_of_lt hneg), Int.neg_neg]
  · rw [if_neg (Int.not_lt.mpr hpos), List.nil_append]
    split
    · rename_i hcons
      exact absurd (isDigit_of_mem_toDigits (hcons ▸ List.mem_cons_self)) (by decide)
    · rename_i hcons
      exact absurd (isDigit_of_mem_toDigits (hcons ▸ List.mem_cons_self)) (by decide)
    · rw [hnat, Option.map_some, Int.ofNat_eq_natCast, Int.natAbs_of_nonneg hpos]

/-! ## The order of padded numbers -/

/-- Texts that start with equally long texts compare by these first. -/
theorem append_lt_append_iff {xs ys as bs : List Char} (h : xs.length = ys.length) :
    xs ++ as < ys ++ bs ↔ xs < ys ∨ xs = ys ∧ as < bs := by
  induction xs generalizing ys with
  | nil =>
    obtain rfl := List.length_eq_zero_iff.mp h.symm
    simp
  | cons x xs ih =>
    cases ys with
    | nil => cases h
    | cons y ys =>
      have hlen : xs.length = ys.length := Nat.succ.inj h
      simp only [List.cons_append, List.cons_lt_cons_iff, ih hlen, List.cons.injEq, and_or_left,
        or_assoc, and_assoc]

theorem padded_inj {width a b : Nat} (ha : a < Nat.pow 10 width) (hb : b < Nat.pow 10 width) :
    padded width a = padded width b ↔ a = b := by
  constructor
  · intro h
    rw [← digitsValue_padded ha, h, digitsValue_padded hb]
  · rintro rfl
    rfl

theorem padded_lt_iff {width a b : Nat} (ha : a < Nat.pow 10 width) (hb : b < Nat.pow 10 width) :
    padded width a < padded width b ↔ a < b := by
  have hdigit : ∀ d < 10, ∀ e < 10, (Char.ofNat (0x30 + d) < Char.ofNat (0x30 + e) ↔ d < e) := by
    decide
  induction width generalizing a b with
  | zero =>
    obtain rfl : a = 0 := Nat.lt_one_iff.mp ha
    obtain rfl : b = 0 := Nat.lt_one_iff.mp hb
    simp
  | succ width ih =>
    have ha' : a / 10 < Nat.pow 10 width := Nat.div_lt_of_lt_mul (Nat.mul_comm _ 10 ▸ ha)
    have hb' : b / 10 < Nat.pow 10 width := Nat.div_lt_of_lt_mul (Nat.mul_comm _ 10 ▸ hb)
    have hrest : padded width (a / 10) < padded width (b / 10) ↔ a / 10 < b / 10 := ih ha' hb'
    rw [padded, padded, append_lt_append_iff (by rw [length_padded, length_padded]), hrest,
      padded_inj ha' hb', List.cons_lt_cons_iff, hdigit _ (by omega) _ (by omega)]
    simp only [List.not_lt_nil, and_false, or_false]
    omega

theorem padded_append_lt_iff {width : Nat} {a b : Int} (ha : 0 ≤ a ∧ a.toNat < Nat.pow 10 width)
    (hb : 0 ≤ b ∧ b.toNat < Nat.pow 10 width) (as bs : List Char) :
    padded width a.toNat ++ as < padded width b.toNat ++ bs ↔ a < b ∨ a = b ∧ as < bs := by
  rw [append_lt_append_iff (by rw [length_padded, length_padded]), padded_lt_iff ha.2 hb.2,
    padded_inj ha.2 hb.2]
  have hlt : a.toNat < b.toNat ↔ a < b := by omega
  have heq : a.toNat = b.toNat ↔ a = b := by omega
  rw [hlt, heq]

end Timespan.Text
