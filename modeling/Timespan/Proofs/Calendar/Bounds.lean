/-
  How large fields can become. The fields that a clock shows have at most four digits, and every
  step from them to an instant moves a field by a few hundred at most. So whatever fields a
  rejection names, it can write them.
-/
import Timespan.Proofs.Calendar.Quarter
import Timespan.Proofs.Calendar.Week

namespace Timespan

open Timespan.Calendar

namespace Calendar.Fields

/-- All fields lie between `-bound` and `bound`. -/
def Within (v : Fields) (bound : Int) : Prop := ∀ g, -bound ≤ v.get g ∧ v.get g ≤ bound

theorem within_iff {v : Fields} {b : Int} :
    v.Within b ↔ ∀ x ∈ v.toList, -b ≤ x ∧ x ≤ b := by
  constructor
  · intro h
    have := h .year
    have := h .month
    have := h .day
    have := h .hour
    have := h .minute
    have := h .second
    have := h .milli
    simp only [get] at *
    simp only [toList, List.forall_mem_cons, List.not_mem_nil, false_imp_iff, implies_true,
      and_true]
    omega
  · intro h g
    refine h _ ?_
    cases g <;> simp [get, toList]

theorem Within.mono {v : Fields} {b c : Int} (h : v.Within b) (hbc : b ≤ c) : v.Within c := by
  intro g
  have := h g
  omega

theorem Within.add {v : Fields} {b : Int} (h : v.Within b) (g : Grain) (n : Int) :
    (v.add g n).Within (b + n.natAbs) := by
  intro k
  have hk := h k
  have hg := h g
  cases g <;> cases k <;> simp only [Fields.add, get] at hk hg ⊢ <;> omega

theorem Within.floor {v : Fields} {b : Int} (h : v.Within b) (hb : 1 ≤ b) (g : Grain) :
    (v.floor g).Within b := by
  intro k
  have hk := h k
  cases g <;> cases k <;> simp only [Fields.floor, get] at hk ⊢ <;> omega

theorem Within.cycleBack {v : Fields} {b : Int} (h : v.Within b) :
    (WallClock.cycleBack v).Within (b + 400) := by
  rw [WallClock.cycleBack]
  split
  · intro k
    have hk := h k
    cases k <;> simp only [get] at hk ⊢ <;> omega
  · exact h.mono (by omega)

theorem Canonical.within {v : Fields} (h : v.Canonical) : v.Within 9999 := by
  have hday := h.valid.day_le
  obtain ⟨⟨⟨hm, hd⟩, h1, h2, h3, h4⟩, hy⟩ := h
  simp only at hm hd
  intro k
  cases k <;> simp only [get] <;> omega

theorem Within.weekStart? {v s : Fields} {b : Int} (h : v.Within b) (hs : v.weekStart? = some s) :
    s.Within (b + 6) := by
  obtain ⟨w, hw, -⟩ := Option.map_eq_some_iff.mp hs
  obtain rfl := Option.some.inj ((weekStart?_eq hw).symm.trans hs)
  have := weekday_range w
  exact (h.add .day _).mono (by omega)

theorem Within.quarterStart? {v s : Fields} {b : Int} (h : v.Within b) (hb : 9999 ≤ b)
    (hs : v.quarterStart? = some s) : s.Within b := by
  obtain ⟨w, hw, -⟩ := Option.map_eq_some_iff.mp hs
  obtain ⟨hyear, hmonth, -⟩ := quarterStart?_year_month hw hs
  obtain rfl := Option.some.inj ((quarterStart?_eq hw).symm.trans hs)
  intro k
  have hk := h k
  cases k <;> simp only [get] at hk hyear hmonth ⊢ <;> omega

end Calendar.Fields

/-! ## What a rejection has to write -/

theorem Text.writable_of_natAbs_lt {n : Int} (h : n.natAbs < 1000000000000000) :
    writable n = true := by
  have hdigits : 15 ≤ maxDigits := by decide
  rw [writable, decide_eq_true_eq]
  -- the power must not be evaluated
  generalize maxDigits = k at hdigits ⊢
  exact Nat.lt_of_lt_of_le h (Nat.pow_le_pow_right (show 0 < 10 by decide) hdigits)

theorem Text.writable_of_inCalendar {t : Int} (h : inCalendar t = true) : writable t = true := by
  simp only [inCalendar, Bool.and_eq_true, decide_eq_true_eq] at h
  simp only [firstWall, lastWall] at h
  exact writable_of_natAbs_lt (by omega)

theorem Fault.fieldsOutOfRange_of_within {v : Fields} (h : v.Within 999999) :
    fieldsOutOfRange v = .rejected (.fieldsOutOfRange v) := by
  rw [fieldsOutOfRange, if_pos]
  rw [List.all_eq_true]
  intro x hx
  have := Fields.within_iff.mp h x hx
  exact Text.writable_of_natAbs_lt (by omega)

end Timespan
