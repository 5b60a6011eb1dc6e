/-
  Digits that are written and read back. A zero-padded number is read off a text as it was written,
  whatever follows it.
-/
import Timespan.Text.Numeral

namespace Timespan.Text

/-- The ASCII digit of a value. -/
def digitChar (d : Nat) : Char := Char.ofNat (0x30 + d)

theorem exists_digitChar {c : Char} (h : c.isDigit = true) : ∃ d < 10, c = digitChar d := by
  have hr : 48 ≤ c.toNat ∧ c.toNat ≤ 57 := by
    simp only [Char.isDigit, Bool.and_eq_true, decide_eq_true_eq, UInt32.le_iff_toNat_le] at h
    exact h
  refine ⟨c.toNat - 48, by omega, ?_⟩
  rw [digitChar, show 0x30 + (c.toNat - 48) = c.toNat by omega, Char.ofNat_toNat]

theorem digit?_digitChar : ∀ d < 10, digit? (digitChar d) = some d := by decide

theorem isDigit_of_ascii {c : Char} (h : c.isDigit = true) : isDigit c = true := by
  obtain ⟨d, hd, rfl⟩ := exists_digitChar h
  rw [isDigit, digit?_digitChar d hd]
  rfl

theorem isDigit_digitChar : ∀ d < 10, (digitChar d).isDigit = true := by decide

theorem nextDigits?_append {xs : List Char} (h : ∀ c ∈ xs, isDigit c = true) (rest : List Char) :
    nextDigits? digit? xs.length (xs ++ rest) = some (xs.filterMap digit?, rest) := by
  induction xs with
  | nil => rfl
  | cons c xs ih =>
    obtain ⟨hc, hxs⟩ := List.forall_mem_cons.mp h
    obtain ⟨d, hd⟩ := Option.isSome_iff_exists.mp hc
    simp [nextDigits?, ih hxs, hd]

/-- The text starts with `n` digits at least. -/
def BeginsWithDigits (n : Nat) (cs : List Char) : Prop :=
  n ≤ cs.length ∧ ∀ c ∈ cs.take n, isDigit c = true

instance (n : Nat) (cs : List Char) : Decidable (BeginsWithDigits n cs) :=
  decidable_of_iff (n ≤ cs.length ∧ (cs.take n).all isDigit = true) (by
    rw [BeginsWithDigits, List.all_eq_true])

theorem nextDigits?_isSome_iff {n : Nat} {cs : List Char} :
    (nextDigits? digit? n cs).isSome = true ↔ BeginsWithDigits n cs := by
  induction n generalizing cs with
  | zero => simp [nextDigits?, BeginsWithDigits]
  | succ n ih =>
    cases cs with
    | nil => simp [nextDigits?, BeginsWithDigits]
    | cons c cs =>
      have hnext : (nextDigits? digit? (n + 1) (c :: cs)).isSome = true ↔
          isDigit c = true ∧ (nextDigits? digit? n cs).isSome = true := by
        simp only [nextDigits?, isDigit]
        cases digit? c with
        | none => simp
        | some d => cases nextDigits? digit? n cs <;> simp
      rw [hnext, ih, BeginsWithDigits, BeginsWithDigits, List.take_succ_cons, List.forall_mem_cons,
        List.length_cons, Nat.succ_le_succ_iff]
      exact and_left_comm

theorem nextNumber?_isSome_iff {n : Nat} {cs : List Char} :
    (nextNumber? digit? n cs).isSome = true ↔ BeginsWithDigits n cs := by
  rw [nextNumber?, Option.isSome_map, nextDigits?_isSome_iff]

/-- A number is read off a text just when the text starts with its digits. -/
theorem nextNumber?_eq_some_iff {n k : Nat} {cs rest : List Char} :
    nextNumber? digit? n cs = some (k, rest) ↔
      ∃ ds : List Char, ds.length = n ∧ (∀ c ∈ ds, isDigit c = true) ∧ cs = ds ++ rest ∧
        digitsValue ds = k := by
  have hread : ∀ ds : List Char, (∀ c ∈ ds, isDigit c = true) → ∀ rest,
      nextNumber? digit? ds.length (ds ++ rest) = some (digitsValue ds, rest) := by
    intro ds hds rest
    rw [nextNumber?, nextDigits?_append hds]
    rfl
  constructor
  · intro h
    obtain ⟨hlen, hdigits⟩ := nextNumber?_isSome_iff.mp (Option.isSome_of_eq_some h)
    have htake : (cs.take n).length = n := List.length_take_of_le hlen
    have hnumber := hread _ hdigits (cs.drop n)
    rw [htake, List.take_append_drop, h, Option.some.injEq, Prod.mk.injEq] at hnumber
    obtain ⟨hk, hrest⟩ := hnumber
    exact ⟨cs.take n, htake, hdigits, by rw [hrest, List.take_append_drop], hk.symm⟩
  · rintro ⟨ds, rfl, hdigits, rfl, rfl⟩
    exact hread ds hdigits rest

/-- As many digits as asked for are read off, and the rest is left. -/
theorem nextNumber?_take {n : Nat} {xs : List Char} (h : ∀ c ∈ xs, c.isDigit = true)
    (hn : n ≤ xs.length) (rest : List Char) :
    nextNumber? digit? n (xs ++ rest) = some (digitsValue (xs.take n), xs.drop n ++ rest) := by
  have hdigits : ∀ c ∈ xs.take n, isDigit c = true :=
    fun c hc => isDigit_of_ascii (h c (List.mem_of_mem_take hc))
  have htext : xs ++ rest = xs.take n ++ (xs.drop n ++ rest) := by
    rw [← List.append_assoc, List.take_append_drop]
  exact nextNumber?_eq_some_iff.mpr ⟨_, List.length_take_of_le hn, hdigits, htext, rfl⟩

/-! ## Values -/

theorem digit?_lt {c : Char} {d : Nat} (h : digit? c = some d) : d < 10 := by
  obtain ⟨first, hfirst, rfl⟩ := Option.map_eq_some_iff.mp h
  have hrange := List.find?_some hfirst
  simp only [Bool.and_eq_true, decide_eq_true_eq] at hrange
  omega

theorem nextDigits?_values {n : Nat} {cs rest : List Char} {ds : List Nat}
    (h : nextDigits? digit? n cs = some (ds, rest)) : ds.length = n ∧ ∀ d ∈ ds, d < 10 := by
  induction n generalizing cs ds with
  | zero =>
    cases h
    exact ⟨rfl, by simp⟩
  | succ n ih =>
    cases cs with
    | nil => cases h
    | cons c cs =>
      simp only [nextDigits?, Option.bind_eq_bind, Option.bind_eq_some_iff, Option.pure_def,
        Option.some.injEq, Prod.mk.injEq] at h
      obtain ⟨d, hd, ⟨es, _⟩, hes, rfl, rfl⟩ := h
      obtain ⟨hlen, hvalues⟩ := ih hes
      exact ⟨congrArg (· + 1) hlen, List.forall_mem_cons.mpr ⟨digit?_lt hd, hvalues⟩⟩

theorem ofDigits_lt {ds : List Nat} (h : ∀ d ∈ ds, d < 10) :
    ofDigits ds < Nat.pow 10 ds.length := by
  -- digits that follow a number come to less than one more of it
  have hfold : ∀ n, ds.foldl (fun n d => 10 * n + d) n < (n + 1) * Nat.pow 10 ds.length := by
    induction ds with
    | nil => intro n; simp
    | cons d ds ih =>
      intro n
      obtain ⟨hd, hds⟩ := List.forall_mem_cons.mp h
      have hle : (10 * n + d + 1) * Nat.pow 10 ds.length ≤
          (10 * (n + 1)) * Nat.pow 10 ds.length := Nat.mul_le_mul_right _ (by omega)
      calc ds.foldl (fun n d => 10 * n + d) (10 * n + d)
          < (10 * n + d + 1) * Nat.pow 10 ds.length := ih hds _
        _ ≤ (10 * (n + 1)) * Nat.pow 10 ds.length := hle
        _ = (n + 1) * Nat.pow 10 (ds.length + 1) := by
          rw [show Nat.pow 10 (ds.length + 1) = Nat.pow 10 ds.length * 10 from rfl,
            Nat.mul_comm 10, Nat.mul_assoc, Nat.mul_comm 10]
  have hzero := hfold 0
  rwa [Nat.zero_add, Nat.one_mul] at hzero

theorem nextNumber?_lt {n k : Nat} {cs rest : List Char}
    (h : nextNumber? digit? n cs = some (k, rest)) : k < Nat.pow 10 n := by
  obtain ⟨⟨ds, rest'⟩, hds, hk⟩ := Option.map_eq_some_iff.mp h
  obtain ⟨rfl, hvalues⟩ := nextDigits?_values hds
  rw [← (Prod.mk.inj hk).1]
  exact ofDigits_lt hvalues

/-! ## Padded numbers -/

@[simp] theorem length_padded (width n : Nat) : (padded width n).length = width := by
  induction width generalizing n with
  | zero => rfl
  | succ width ih => rw [padded, List.length_append, ih, List.length_singleton]

theorem isDigit_of_mem_padded {width n : Nat} {c : Char} (h : c ∈ padded width n) :
    c.isDigit = true := by
  induction width generalizing n with
  | zero => cases h
  | succ width ih =>
    rw [padded, List.mem_append, List.mem_singleton] at h
    rcases h with h | rfl
    · exact ih h
    · exact isDigit_digitChar (n % 10) (by omega)

theorem exists_digit_mem_padded (width n : Nat) :
    ∃ c ∈ padded (width + 1) n, c.isDigit = true :=
  ⟨_, List.mem_append_right _ List.mem_cons_self, isDigit_digitChar (n % 10) (by omega)⟩

theorem digitsValue_padded {width n : Nat} (h : n < Nat.pow 10 width) :
    digitsValue (padded width n) = n := by
  induction width generalizing n with
  | zero =>
    obtain rfl : n = 0 := Nat.lt_one_iff.mp h
    rfl
  | succ width ih =>
    have hrest : n / 10 < Nat.pow 10 width := Nat.div_lt_of_lt_mul (Nat.mul_comm _ 10 ▸ h)
    have hlast : digit? (Char.ofNat (0x30 + n % 10)) = some (n % 10) :=
      digit?_digitChar _ (by omega)
    rw [padded, digitsValue, ofDigits, List.filterMap_append, List.foldl_append,
      List.filterMap_cons, hlast]
    show 10 * digitsValue (padded width (n / 10)) + n % 10 = n
    rw [ih hrest]
    omega

/-- A padded number is read back, whatever follows it. -/
theorem nextNumber?_padded {width n : Nat} (h : n < Nat.pow 10 width) (rest : List Char) :
    nextNumber? digit? width (padded width n ++ rest) = some (n, rest) := by
  have hlen := length_padded width n
  rw [nextNumber?_take (fun c hc => isDigit_of_mem_padded hc) (by omega), List.take_of_length_le
    (by omega), List.drop_eq_nil_of_le (by omega), digitsValue_padded h]
  rfl

end Timespan.Text
