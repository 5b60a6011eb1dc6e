/-
  What the spelling of a text cannot change. Look-alikes and blanks are gone once a text is read
  plainly, and the case of its letters once its terms are told apart, so it shows in the wording of
  errors at most (`resolve_spelling`). Only the one text that asks for no range is told by its exact
  spelling.
-/
import Timespan.Proofs.Expression.Resolution
import Timespan.Proofs.Term.Form
import Timespan.Zone.Atlas

namespace Timespan

open Text

/-! ## Letters -/

namespace Text

/-- ASCII capitals go to the letters 32 places after them, and all other characters stay. -/
theorem toLower_cases (c : Char) :
    c.toLower = c ∨ (65 ≤ c.toNat ∧ c.toNat ≤ 90 ∧ c.toLower.toNat = c.toNat + 32) := by
  by_cases h : c.val ≥ 'A'.val ∧ c.val ≤ 'Z'.val
  · have hlower : c.toLower = Char.mk (c.val + ('a'.val - 'A'.val)) _ := dif_pos h
    have hfirst : 65 ≤ c.val.toNat := h.1
    have hlast : c.val.toNat ≤ 90 := h.2
    refine Or.inr ⟨hfirst, hlast, ?_⟩
    have hsum : c.toLower.toNat = (c.toNat + 32) % 4294967296 := by
      rw [hlower]
      exact UInt32.toNat_add _ _
    rw [hsum]
    exact Nat.mod_eq_of_lt (by show c.val.toNat + 32 < _; omega)
  · exact Or.inl (dif_neg h)

@[simp] theorem isBlank_toLower (c : Char) : isBlank c.toLower = isBlank c := by
  rcases toLower_cases c with h | ⟨h1, h2, h⟩
  · rw [h]
  · rw [Bool.eq_iff_iff, isBlank_iff, isBlank_iff, h]
    omega

@[simp] theorem lower_toLower (c : Char) : lower c.toLower = lower c := by
  rcases toLower_cases c with h | ⟨h1, h2, h⟩
  · rw [h]
  · have hstay : c.toLower.toLower = c.toLower := by
      rcases toLower_cases c.toLower with h' | ⟨h1', h2', -⟩
      · exact h'
      · omega
    rw [lower, lower, if_neg (by omega), if_neg (by omega), hstay]

/-- Only letters are the lower case of anything but themselves. -/
theorem toLower_eq_iff {c d : Char} (hd : d.toNat < 65) : c.toLower = d ↔ c = d := by
  rcases toLower_cases c with h | ⟨h1, h2, h⟩
  · rw [h]
  · refine iff_of_false ?_ ?_ <;> rintro rfl <;> omega

end Text

/-! ## Terms -/

/-- The kind of a rejection; an overlong numeral has none. -/
def Fault.kind? : Fault → Option Rejection.Kind
  | .rejected cause => some cause.kind
  | .overlongNumeral => none

@[simp] theorem Term.canonical_map_toLower (text : List Char) :
    canonical (text.map Char.toLower) = canonical text := by
  rw [canonical, tidy_map isBlank_toLower rfl, List.map_map,
    show lower ∘ Char.toLower = lower from funext lower_toLower]
  rfl

/-- The case of a term's letters shows only in the wording of its errors. -/
@[simp] theorem Term.resolve_map_toLower (c : WallClock) (origin : Int) (text : List Char) :
    (resolve c origin (text.map Char.toLower)).mapError Fault.kind? =
      (resolve c origin text).mapError Fault.kind? := by
  have hform : form (text.map Char.toLower) = form text := by
    rw [form, form, canonical_map_toLower]
  rw [resolve_eq, resolve_eq, hform, canonical_map_toLower]
  cases form text <;> rfl

/-! ## Expressions -/

/-- An expression with its terms in lower case. -/
def Expression.toLower (e : Expression) : Expression :=
  ⟨e.left?.map (List.map Char.toLower), e.operator?, e.right?.map (List.map Char.toLower)⟩

namespace Operator

@[simp] theorem atStart?_map_toLower (cs : List Char) :
    atStart? (cs.map Char.toLower) = atStart? cs := by
  cases cs with
  | nil => rfl
  | cons c cs =>
    have hless : c.toLower = '<' ↔ c = '<' := toLower_eq_iff (by decide)
    have hhyphen : c.toLower = '-' ↔ c = '-' := toLower_eq_iff (by decide)
    have hgreater : (cs.map Char.toLower).head? = some '>' ↔ cs.head? = some '>' := by
      cases cs with
      | nil => exact Iff.rfl
      | cons d ds =>
        simp [toLower_eq_iff (show '>'.toNat < 65 by decide)]
    simp only [List.map_cons, atStart?, hless, hhyphen, hgreater]

@[simp] theorem cut?_map_toLower (cs : List Char) :
    cut? (cs.map Char.toLower) = (cut? cs).map fun (before, op, after) =>
      (before.map Char.toLower, op, after.map Char.toLower) := by
  induction cs with
  | nil => rfl
  | cons c cs ih =>
    rw [List.map_cons, cut?_cons, ← List.map_cons, atStart?_map_toLower, cut?_cons, ih]
    cases atStart? (c :: cs) with
    | none => simp only [Option.map_map]; rfl
    | some op => simp [List.map_drop]

end Operator

@[simp] theorem Expression.term?_map_toLower (cs : List Char) :
    term? (cs.map Char.toLower) = (term? cs).map (List.map Char.toLower) := by
  rw [term?, term?, trim_map isBlank_toLower]
  cases trim cs <;> rfl

theorem Expression.read_map_toLower (cs : List Char) :
    (read (cs.map Char.toLower)).mapError Rejection.kind =
      ((read cs).map toLower).mapError Rejection.kind := by
  rw [read, Operator.cut?_map_toLower, read]
  cases Operator.cut? cs with
  | none =>
    simp only [Option.map_none, term?_map_toLower]
    rfl
  | some parts =>
    obtain ⟨before, op, after⟩ := parts
    simp only [Option.map_some, term?_map_toLower, trim_map isBlank_toLower,
      Operator.cut?_map_toLower, Option.isSome_map]
    split <;> rfl

theorem Expression.resolve_toLower (c : WallClock) (origin width : Int) (e : Expression) :
    (e.toLower.resolve c origin width).mapError Fault.kind? =
      (e.resolve c origin width).mapError Fault.kind? := by
  simp [resolve, toLower]

theorem Expression.read_resolve_map_toLower (c : WallClock) (origin width : Int) (cs : List Char) :
    ((read (cs.map Char.toLower)).mapError .rejected >>= resolve c origin width).mapError
        Fault.kind? =
      ((read cs).mapError .rejected >>= resolve c origin width).mapError Fault.kind? := by
  -- the text is quoted in the refusal of a second operator, so only the kinds can agree
  have hkind (x : Except Rejection Expression) : (x.mapError .rejected).mapError Fault.kind? =
      (x.mapError Rejection.kind).mapError some := by
    rw [mapError_mapError, mapError_mapError]
    rfl
  rw [mapError_bind, mapError_bind, hkind, hkind, read_map_toLower]
  cases read cs with
  | error cause => rfl
  | ok e => exact resolve_toLower c origin width e

/-! ## Texts -/

variable {atlas : Atlas} {config : Config} {clock : Int}

theorem resolve_kind_toLower {x : String} (hx : x ≠ noFilter) :
    (resolve atlas config clock (some x)).mapError Fault.kind? =
      (if (tidyPlain x.toList).map Char.toLower = [] then .error (.rejected .emptyInput)
      else (Expression.read ((tidyPlain x.toList).map Char.toLower)).mapError .rejected >>=
        Expression.resolve (atlas.clock config.mode) (config.now?.getD clock)
          config.width).mapError Fault.kind? := by
  rw [resolve_eq_of_ne hx]
  simp only [List.map_eq_nil_iff]
  split
  · rfl
  · exact (Expression.read_resolve_map_toLower _ _ _ _).symm

/-- Texts whose plain, tidy readings differ in the case of letters alone have the same range or
    errors of the same kind, and texts with one reading have the same errors, down to the wording.
    So a text can be replaced by its plain, tidy reading. -/
theorem resolve_spelling (atlas : Atlas) (config : Config) (clock : Int) :
    (∀ x y : String, x ≠ noFilter → y ≠ noFilter →
      (tidyPlain x.toList).map Char.toLower = (tidyPlain y.toList).map Char.toLower →
      (resolve atlas config clock (some x)).mapError Fault.kind? =
        (resolve atlas config clock (some y)).mapError Fault.kind?) ∧
    (∀ x y : String, x ≠ noFilter → y ≠ noFilter → tidyPlain x.toList = tidyPlain y.toList →
      resolve atlas config clock (some x) = resolve atlas config clock (some y)) ∧
    ∀ x : String, x ≠ noFilter → String.ofList (tidyPlain x.toList) ≠ noFilter →
      resolve atlas config clock (some x) =
        resolve atlas config clock (some (String.ofList (tidyPlain x.toList))) := by
  have hplain (x y : String) (hx : x ≠ noFilter) (hy : y ≠ noFilter)
      (h : tidyPlain x.toList = tidyPlain y.toList) :
      resolve atlas config clock (some x) = resolve atlas config clock (some y) := by
    rw [resolve_eq_of_ne hx, resolve_eq_of_ne hy, h]
  refine ⟨?_, hplain, ?_⟩
  · intro x y hx hy h
    rw [resolve_kind_toLower hx, resolve_kind_toLower hy, h]
  · intro x hx hy
    exact hplain x _ hx hy (by rw [String.toList_ofList, tidyPlain_tidyPlain])

/-- An arrow, full-width digits and capitals for two days around the present instant. -/
theorem resolve_spelling_wide :
    let run (s : String) := resolve (Atlas.ofHost "UTC0") {} 0 (some s)
    "  Now ↔ ２ DAYS" ≠ noFilter ∧ "now <> 2 days" ≠ noFilter ∧
      (tidyPlain "  Now ↔ ２ DAYS".toList).map Char.toLower =
        (tidyPlain "now <> 2 days".toList).map Char.toLower ∧
      (run "  Now ↔ ２ DAYS").mapError Fault.kind? = (run "now <> 2 days").mapError Fault.kind? ∧
      tidyPlain "  Now ↔ ２ DAYS".toList = tidyPlain "Now <> 2 DAYS".toList ∧
      "Now <> 2 DAYS" ≠ noFilter ∧ run "  Now ↔ ２ DAYS" = run "Now <> 2 DAYS" ∧
      String.ofList (tidyPlain "  Now ↔ ２ DAYS".toList) ≠ noFilter ∧
      run "  Now ↔ ２ DAYS" = run (String.ofList (tidyPlain "  Now ↔ ２ DAYS".toList)) := by
  intro run
  obtain ⟨hcase, hplain, hreading⟩ := resolve_spelling (Atlas.ofHost "UTC0") {} 0
  have hx : "  Now ↔ ２ DAYS" ≠ noFilter := by decide
  have hy : "now <> 2 days" ≠ noFilter := by decide
  have hz : "Now <> 2 DAYS" ≠ noFilter := by decide
  have hfold : (tidyPlain "  Now ↔ ２ DAYS".toList).map Char.toLower =
      (tidyPlain "now <> 2 days".toList).map Char.toLower := by decide +kernel
  have hsame : tidyPlain "  Now ↔ ２ DAYS".toList = tidyPlain "Now <> 2 DAYS".toList := by
    decide +kernel
  have hown : String.ofList (tidyPlain "  Now ↔ ２ DAYS".toList) ≠ noFilter := by decide +kernel
  exact ⟨hx, hy, hfold, hcase _ _ hx hy hfold, hsame, hz, hplain _ _ hx hz hsame, hown,
    hreading _ hx hown⟩

end Timespan
