/-
  The last, this and the next period. On every clock of a regular zone that repeats, one stops where
  the following one starts (`stop_eq_start_of_succ`). Both ends are brought back from the same
  fields, except for a quarter that ends with the year: it stops with the 13th month and the next
  one starts with the first of the year after, and in 9599 only the latter is brought back by way
  of the date 400 years before. In UTC counting on comes to the same as moving the present.
-/
import Timespan.Proofs.Clock.Cycle
import Timespan.Proofs.Term.Partition
import Timespan.Proofs.Zone.Yearly

namespace Timespan

open Timespan.Calendar

namespace Period

variable {p : Period} {v s s' : Fields} {k : Int}

/-- The fields after the length of a period are those from which the next one starts. -/
theorem eq_add_of_start? (hp : p ≠ .quarter) (h : v.Valid)
    (hs : p.start? (v.truncate p.grain (k * p.length)) = some s)
    (hs' : p.start? (v.truncate p.grain ((k + 1) * p.length)) = some s') :
    s' = s.add p.grain p.length := by
  cases p with
  | quarter => exact absurd rfl hp
  | week =>
    rw [weekStart?_truncate h hs, weekStart?_truncate h hs', grain, length, Fields.truncate_add]
    congr 1
    simp only [weekday]
    omega
  | day | month | year =>
    cases hs
    cases hs'
    rw [Fields.truncate_add]
    congr 1
    simp only [length]
    omega

end Period

namespace Keyword

open WallClock

variable {c : WallClock} {z : Zone} {t : Int} {r r' : Relation} {p : Period} {i j : Interval}

/-- A period stops where the one counted next starts. -/
theorem stop_eq_start_of_succ (hz : c.zone = .ok z) (hr : z.Regular) (hc : z.Cyclic)
    (hsign : r'.sign = r.sign + 1) (hi : periodInterval c t r p = .ok i)
    (hj : periodInterval c t r' p = .ok j) : i.stop = j.start := by
  obtain ⟨now, s, hnow, hs, hi⟩ := periodInterval_eq_ok_iff.mp hi
  obtain ⟨now', s', hnow', hs', hj⟩ := periodInterval_eq_ok_iff.mp hj
  obtain rfl := Except.ok.inj (hnow.symm.trans hnow')
  have hv := (canonical_of_fieldsAt hnow).valid
  have hstop := (interval_eq_ok hi).2
  have hstart := (interval_eq_ok hj).1
  rw [hsign] at hs'
  have hs := Period.start_eq_ok_iff.mp hs
  have hs' := Period.start_eq_ok_iff.mp hs'
  by_cases hp : p = .quarter
  · have hrolled : (s.add p.grain p.length).rolled = s'.rolled := by
      rw [(Period.starts_of_start? hv hs).stop, (Period.starts_of_start? hv hs').start,
        Int.add_assoc]
    refine instantOf_eq_of_rolled_eq hz hr hc hstop hstart hrolled ?_
    subst hp
    rw [Period.quarterStart?_truncate hs] at hrolled ⊢
    rw [Period.quarterStart?_truncate hs'] at hrolled ⊢
    rintro (hyear | hyear)
    · apply Fields.le_rolled_of_year hyear <;>
        simp only [Fields.firstOfQuarter, Fields.add, Period.grain, Period.length,
          Fields.millisInMonth] <;> omega
    · rw [hrolled]
      apply Fields.le_rolled_of_year hyear <;>
        simp only [Fields.firstOfQuarter, Fields.millisInMonth] <;> omega
  · rw [Period.eq_add_of_start? hp hv hs hs', hstop] at hstart
    exact Except.ok.inj hstart

/-- In UTC the keyword of the present period gives the period counted to when it is resolved there
    instead. -/
theorem eq_of_periodInterval_utc {u : Int} (hi : periodInterval utc t r p = .ok i)
    (hj : periodInterval utc u .this p = .ok j)
    (hu : p.number (Fields.ofWall u) = p.number (Fields.ofWall t) + r.sign) : i = j := by
  obtain ⟨-, -, hi⟩ := eq_cell_of_periodInterval_utc hi
  obtain ⟨-, -, hj⟩ := periodInterval_utc_this_iff.mp hj
  rw [hi, hj, hu]

end Keyword

namespace Term

open WallClock

/-- The ranges of the last, this and the next period follow one another on every clock. In UTC the
    next period is the present one of the instant at which this one stops, and the last one that of
    the instant before this one starts. -/
theorem resolve_last_this_next {c : WallClock} {z : Zone} (hz : c.zone = .ok z) (hr : z.Regular)
    (hc : z.Cyclic) (p : Period) (t : Int) :
    (∀ i j, resolve c t (Keyword.period .last p).name.toList = .ok (.interval i) →
      resolve c t (Keyword.period .this p).name.toList = .ok (.interval j) → i.stop = j.start) ∧
    (∀ i j, resolve c t (Keyword.period .this p).name.toList = .ok (.interval i) →
      resolve c t (Keyword.period .next p).name.toList = .ok (.interval j) → i.stop = j.start) ∧
    ∀ i, resolve utc t (Keyword.period .this p).name.toList = .ok (.interval i) →
      (∀ j k, resolve utc t (Keyword.period .next p).name.toList = .ok (.interval j) →
        resolve utc i.stop (Keyword.period .this p).name.toList = .ok (.interval k) → j = k) ∧
      (∀ j k, resolve utc t (Keyword.period .last p).name.toList = .ok (.interval j) →
        resolve utc (i.start - 1) (Keyword.period .this p).name.toList = .ok (.interval k) →
        j = k) := by
  simp only [resolve_name_eq_ok_iff]
  refine ⟨fun i j => Keyword.stop_eq_start_of_succ hz hr hc rfl,
    fun i j => Keyword.stop_eq_start_of_succ hz hr hc rfl, fun i hi => ?_⟩
  obtain ⟨-, -, rfl⟩ := Keyword.periodInterval_utc_this_iff.mp hi
  exact ⟨fun j k hj hk => Keyword.eq_of_periodInterval_utc hj hk (p.number_begins _),
    fun j k hj hk => Keyword.eq_of_periodInterval_utc hj hk (p.number_before_begins _)⟩

/-- The quarters around the end of 9599, on the host's clock in eastern time and in UTC. The last of
    9599 stops with the 13th month of its year. -/
theorem resolve_last_this_next_end_of_9599 :
    (∃ i j k, resolve (host Zone.eastern) 240775675200000 "lastquarter".toList = .ok (.interval i) ∧
      resolve (host Zone.eastern) 240775675200000 "thisquarter".toList = .ok (.interval j) ∧
      resolve (host Zone.eastern) 240775675200000 "nextquarter".toList = .ok (.interval k) ∧
      i.stop = j.start ∧ j.stop = k.start) ∧
    ∃ i j, resolve utc 240775675200000 "thisquarter".toList = .ok (.interval i) ∧
      resolve utc 240775675200000 "nextquarter".toList = .ok (.interval j) ∧
      resolve utc i.stop "thisquarter".toList = .ok (.interval j) ∧ i.stop = j.start := by
  have hlast : resolve (host Zone.eastern) 240775675200000
      (Keyword.period .last .quarter).name.toList =
        .ok (.interval ⟨240763636800000, 240771585600000⟩) := by decide +kernel
  have hthis : resolve (host Zone.eastern) 240775675200000
      (Keyword.period .this .quarter).name.toList =
        .ok (.interval ⟨240771585600000, 240779538000000⟩) := by decide +kernel
  have hnext : resolve (host Zone.eastern) 240775675200000
      (Keyword.period .next .quarter).name.toList =
        .ok (.interval ⟨240779538000000, 240787396800000⟩) := by decide +kernel
  have hthis' : resolve utc 240775675200000 (Keyword.period .this .quarter).name.toList =
      .ok (.interval ⟨240771571200000, 240779520000000⟩) := by decide +kernel
  have hnext' : resolve utc 240775675200000 (Keyword.period .next .quarter).name.toList =
      .ok (.interval ⟨240779520000000, 240787382400000⟩) := by decide +kernel
  have hmoved : resolve utc 240779520000000 (Keyword.period .this .quarter).name.toList =
      .ok (.interval ⟨240779520000000, 240787382400000⟩) := by decide +kernel
  obtain ⟨h1, h2, -⟩ := resolve_last_this_next (c := host Zone.eastern) rfl Zone.eastern_regular
    Zone.eastern_cyclic .quarter 240775675200000
  obtain ⟨-, h2', h3⟩ := resolve_last_this_next (c := utc) rfl Zone.utc_regular Zone.utc_cyclic
    .quarter 240775675200000
  have hsame := (h3 _ hthis').1 _ _ hnext' hmoved
  exact ⟨⟨_, _, _, hlast, hthis, hnext, h1 _ _ hlast hthis, h2 _ _ hthis hnext⟩,
    _, _, hthis', hnext', hsame ▸ hmoved, h2' _ _ hthis' hnext'⟩

end Term

end Timespan
