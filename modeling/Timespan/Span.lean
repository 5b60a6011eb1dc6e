/-
  Ranges of instants that may be open on a side, and the range that an operator makes of its terms.
-/
import Timespan.Expression
import Timespan.Term.Basic

namespace Timespan

/-- A half-open range that is unbounded on a side without an end. -/
structure Span where
  start? : Option Int
  stop? : Option Int
deriving DecidableEq, Repr

def Interval.toSpan (i : Interval) : Span := ⟨some i.start, some i.stop⟩

namespace Span

/-- Can both bounds of a range be written? -/
def isWritable (s : Span) : Bool := s.start?.all Text.writable && s.stop?.all Text.writable

/-- The range that a term marks, for an operator that has to extend it. -/
def point (t : Term) : Except Rejection Interval :=
  match t.point? with
  | some i => .ok i
  | none => .error .durationAlone

/-- From the first term to the second, open on a side without a term. A duration on one side
    extends the other side's range by its length. -/
def between : Option Term → Option Term → Except Rejection Span
  | none, none => .error .operatorAlone
  | some t, none => do
    let i ← point t
    .ok ⟨some i.start, none⟩
  | none, some t => do
    let i ← point t
    .ok ⟨none, some i.stop⟩
  | some t, some (.duration d) => do
    let i ← point t
    .ok ⟨some i.start, some (i.stop + d)⟩
  | some (.duration d), some t => do
    let i ← point t
    .ok ⟨some (i.start - d), some i.stop⟩
  | some t, some u => do
    let i ← point t
    let j ← point u
    .ok ⟨some i.start, some j.stop⟩

/-- A range with the same length added on both sides. -/
def widen (i : Interval) (width : Int) : Span := ⟨some (i.start - width), some (i.stop + width)⟩

/-- The first term widened by the duration, or by the default width without one. -/
def around (defaultWidth : Int) : Option Term → Option Term → Except Rejection Span
  | none, _ => .error .nothingToWiden
  | some t, none => do
    let i ← point t
    .ok (widen i defaultWidth)
  | some t, some u => do
    let i ← point t
    match u with
    | .duration d => .ok (widen i d)
    | _ => .error .widthExpected

/-- A term by itself. A duration lies on both sides of the origin, the present instant is widened
    by the default width. -/
def single (origin defaultWidth : Int) : Option Term → Except Rejection Span
  | none => .error .noTerm
  | some (.duration d) => .ok (widen ⟨origin, origin⟩ d)
  | some (.now t) => .ok (widen ⟨t, t⟩ defaultWidth)
  | some (.interval i) => .ok i.toSpan

/-- The range of an expression whose terms are resolved. -/
def ofTerms (operator? : Option Operator) (left? right? : Option Term)
    (origin defaultWidth : Int) : Except Rejection Span :=
  match operator? with
  | none => single origin defaultWidth left?
  | some .interval | some .arrow => between left? right?
  | some .around => around defaultWidth left? right?

end Span

end Timespan
