/-
  Expressions: at most two terms around at most one operator.
-/
import Timespan.Rejection

namespace Timespan

inductive Operator where
  /-- `<`, the range between two terms. -/
  | interval
  /-- `->`, the same. -/
  | arrow
  /-- `<>`, a term widened on both sides. -/
  | around
deriving DecidableEq, Repr

namespace Operator

def token : Operator → List Char
  | .interval => ['<']
  | .arrow => ['-', '>']
  | .around => ['<', '>']

def all : List Operator := [.interval, .arrow, .around]

/-- The text before the first operator, the operator, and the text after it. At each place the
    longer operators come first; a hyphen without a following `>` is part of a term. -/
def cut? : List Char → Option (List Char × Operator × List Char)
  | [] => none
  | '-' :: '>' :: cs => some ([], .arrow, cs)
  | '<' :: '>' :: cs => some ([], .around, cs)
  | '<' :: cs => some ([], .interval, cs)
  | c :: cs => (cut? cs).map fun (before, op, after) => (c :: before, op, after)

end Operator

structure Expression where
  left? : Option (List Char)
  operator? : Option Operator
  right? : Option (List Char)
deriving DecidableEq, Repr

namespace Expression

/-- A term without the blanks around it; a blank text is no term. -/
def term? (cs : List Char) : Option (List Char) :=
  match Text.trim cs with
  | [] => none
  | t => some t

/-- Splits a text at its operator; a second operator is refused. -/
def read (cs : List Char) : Except Rejection Expression :=
  match Operator.cut? cs with
  | none => .ok ⟨term? cs, none, none⟩
  | some (before, op, after) =>
    if (Operator.cut? (Text.trim after)).isSome then .error (.ambiguousOperator (String.ofList cs))
    else .ok ⟨term? before, some op, term? after⟩

end Expression

end Timespan
