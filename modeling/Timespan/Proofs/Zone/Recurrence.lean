/-
  Zones known by name. Each has a recorded history that ends long before the year 9000 and a yearly
  rule from there on, so from that year on its offsets repeat every 400 years (`named?_cyclic`), and
  none of them is a day or more (`named?_bounded`).
-/
import Timespan.Proofs.Zone.Yearly
import Timespan.Zone.Atlas

namespace Timespan.Zone

open Timespan.Calendar

/-- An offset of less than a day. -/
def Short (offset : Int) : Prop := -86400 < offset ∧ offset < 86400

instance (offset : Int) : Decidable (Short offset) := inferInstanceAs (Decidable (_ ∧ _))

/-! ## Rules and histories -/

/-- Both offsets of the rule are short. -/
def Rule.Short (r : Rule) : Prop := Zone.Short r.standard ∧ ∀ s ∈ r.summer?, Zone.Short s.offset

instance (r : Rule) : Decidable r.Short := inferInstanceAs (Decidable (_ ∧ _))

theorem Rule.Short.offsetAt {r : Rule} (h : r.Short) (u : Int) : Zone.Short (r.offsetAt u) := by
  unfold Rule.offsetAt
  split
  · exact h.1
  · rename_i s hs
    refine iteInduction (motive := Zone.Short) (fun _ => ?_) fun _ => ?_
    · exact h.2 s hs
    · exact h.1

variable {r : Rule} {u current : Int} {cs : List Change}

/-- After the last change the rule holds. -/
theorem offsetThrough_of_le (h : ∀ c ∈ cs, c.moment ≤ u) :
    offsetThrough r u current cs = r.offsetAt u := by
  induction cs generalizing current with
  | nil => rfl
  | cons c cs ih =>
    obtain ⟨hc, hcs⟩ := List.forall_mem_cons.mp h
    rw [offsetThrough, if_neg (by omega)]
    exact ih hcs

theorem short_offsetThrough (hr : r.Short) (hcurrent : Short current)
    (hcs : ∀ c ∈ cs, Short c.offset) : Short (offsetThrough r u current cs) := by
  induction cs generalizing current with
  | nil => exact hr.offsetAt u
  | cons c cs ih =>
    obtain ⟨hc, hcs⟩ := List.forall_mem_cons.mp hcs
    unfold offsetThrough
    split
    · exact hcurrent
    · exact ih hc hcs

namespace Schedule

/-- The history ends before the year 9000, and all offsets are short. -/
structure Settled (s : Schedule) : Prop where
  ended : ∀ c ∈ s.changes, c.moment ≤ monthStart 9000 1 * 86400
  initial : Short s.initial
  changes : ∀ c ∈ s.changes, Short c.offset
  rule : s.rule.Short

variable {s : Schedule}

theorem Settled.cyclic (h : s.Settled) : (ofSchedule s).Cyclic := by
  intro u hu
  have hcycle : 0 ≤ cycleSeconds := by decide
  have hrule : ∀ x, u ≤ x → s.offsetAt x = s.rule.offsetAt x := by
    intro x hx
    refine offsetThrough_of_le fun c hc => ?_
    have := h.ended c hc
    omega
  show s.offsetAt (u + cycleSeconds) = s.offsetAt u
  rw [hrule _ (by omega), hrule _ (Int.le_refl u), Rule.offsetAt_add_cycle]

theorem Settled.bounded (h : s.Settled) : (ofSchedule s).Bounded :=
  fun _ => short_offsetThrough h.rule h.initial h.changes

end Schedule

/-! ## The table -/

theorem settled_of_mem_schedules : ∀ p ∈ schedules, p.2.Settled := by
  have h : ∀ p ∈ schedules, (∀ c ∈ p.2.changes, c.moment ≤ monthStart 9000 1 * 86400) ∧
      Short p.2.initial ∧ (∀ c ∈ p.2.changes, Short c.offset) ∧ p.2.rule.Short := by
    decide +kernel
  intro p hp
  obtain ⟨h1, h2, h3, h4⟩ := h p hp
  exact ⟨h1, h2, h3, h4⟩

theorem exists_settled_of_named? {name : String} {z : Zone} (h : named? name = some z) :
    ∃ s : Schedule, s.Settled ∧ z = ofSchedule s := by
  obtain ⟨s, hs, rfl⟩ := Option.map_eq_some_iff.mp h
  obtain ⟨before, after, hlist, -⟩ := List.lookup_eq_some_iff.mp hs
  refine ⟨s, settled_of_mem_schedules (name, s) ?_, rfl⟩
  rw [hlist]
  exact List.mem_append_right _ List.mem_cons_self

theorem named?_cyclic {name : String} {z : Zone} (h : named? name = some z) : z.Cyclic := by
  obtain ⟨s, hs, rfl⟩ := exists_settled_of_named? h
  exact hs.cyclic

theorem named?_bounded {name : String} {z : Zone} (h : named? name = some z) : z.Bounded := by
  obtain ⟨s, hs, rfl⟩ := exists_settled_of_named? h
  exact hs.bounded

end Timespan.Zone
