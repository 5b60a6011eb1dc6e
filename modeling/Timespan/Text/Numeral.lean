/-
  Integers as text: the value of a digit run, the reading of a signed numeral, zero-padded
  writing, and the bound on the length of a numeral.
-/
import Timespan.Text.Blank
import Timespan.Text.Digit

namespace Timespan.Text

/-- Numerals of more digits than this are neither read nor written. -/
def maxDigits : Nat := 4300

/-- The value of a digit run; characters that are no digits count nothing. -/
def digitsValue (cs : List Char) : Nat := ofDigits (cs.filterMap digit?)

/-- The values of a run of digits in which single underscores may stand between two digits. -/
def groupedDigits? : List Char → Option (List Nat)
  | [] => none
  | [c] => (digit? c).map ([·])
  | c :: '_' :: cs => do
    let d ← digit? c
    let ds ← groupedDigits? cs
    some (d :: ds)
  | c :: cs => do
    let d ← digit? c
    let ds ← groupedDigits? cs
    some (d :: ds)

/-- An unsigned numeral within the length bound. -/
def natural? (cs : List Char) : Option Nat := do
  let ds ← groupedDigits? cs
  if ds.length ≤ maxDigits then some (ofDigits ds) else none

/-- A numeral with at most one sign and any blanks around it. -/
def integer? (cs : List Char) : Option Int :=
  match trim cs with
  | '-' :: ds => (natural? ds).map fun n => -(n : Int)
  | '+' :: ds => (natural? ds).map Int.ofNat
  | ds => (natural? ds).map Int.ofNat

/-- Does the numeral of `n` stay within the length bound? -/
def writable (n : Int) : Bool := n.natAbs < Nat.pow 10 maxDigits

/-- The last `width` decimal digits of `n`. -/
def padded : Nat → Nat → List Char
  | 0, _ => []
  | width + 1, n => padded width (n / 10) ++ [Char.ofNat (0x30 + n % 10)]

end Timespan.Text
