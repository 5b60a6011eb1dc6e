/-
  Numbers in requests: the integer that a floating-point number is, and integers written as text.
-/
import Timespan.Text.Numeral

namespace Timespan.Service

/-! ## Floating-point numbers -/

/-- The quotient rounded to the nearest integer, a half to the even one. -/
def roundedQuotient (n d : Nat) : Nat :=
  let q := n / d
  let r := 2 * (n % d)
  if d < r || (r = d && q % 2 = 1) then q + 1 else q

/-- The integer that n / d is once it is rounded to 53 binary digits, if it is one then. -/
def wholeMagnitude? (n d : Nat) : Option Nat :=
  let q := n / d
  if n = 0 then some 0
  else if q = 0 then
    if roundedQuotient (n * Nat.pow 2 53) d = Nat.pow 2 53 then some 1 else none
  else
    let top := Nat.log2 q
    if 52 ≤ top then
      let unit := Nat.pow 2 (top - 52)
      some (roundedQuotient n (d * unit) * unit)
    else
      let unit := Nat.pow 2 (52 - top)
      let r := roundedQuotient (n * unit) d
      if r % unit = 0 then some (r / unit) else none

/-- The integer that the floating-point number nearest to m / 10^e is, if it is one. -/
def whole? (mantissa : Int) (exponent : Nat) : Option Int :=
  (wholeMagnitude? mantissa.natAbs (Nat.pow 10 exponent)).map (mantissa.sign * Int.ofNat ·)

/-- Integers between -2^63 and 2^63, without these two. -/
def isMachineSized (n : Int) : Bool := n.natAbs < Nat.pow 2 63

/-! ## Integers as text -/

inductive NumeralFault where
  | malformed
  | overlong
deriving DecidableEq, Repr

/-- A numeral of ASCII digits without superfluous zeros, perhaps after a minus sign. Sign and
    digits together have at most `Text.maxDigits` characters; where the digits alone break that
    bound, what follows them does not matter. -/
def plainInteger (cs : List Char) : Except NumeralFault Int :=
  let digits := match cs with
    | '-' :: ds => ds
    | ds => ds
  let run := digits.takeWhile Char.isDigit
  let size := cs.length - digits.length + run.length
  match digits with
  | [] => .error .malformed
  | c :: rest =>
    if c = '0' then if rest.isEmpty then .ok 0 else .error .malformed
    else if !c.isDigit then .error .malformed
    else if Text.maxDigits < size then .error .overlong
    else if run.length < digits.length then .error .malformed
    else
      let n := Int.ofNat (Text.digitsValue digits)
      .ok (if cs.head? = some '-' then -n else n)

/-- Blanks around a number in text; the four ASCII separators are not among them. -/
def isPadding (c : Char) : Bool := Text.isBlank c && !(0x1C ≤ c.toNat && c.toNat ≤ 0x1F)

def trimPadding (cs : List Char) : List Char :=
  ((cs.dropWhile isPadding).reverse.dropWhile isPadding).reverse

/-- A numeral without a plus sign before it. -/
def withoutPlus? : List Char → Option (List Char)
  | '+' :: '-' :: _ => none
  | '+' :: cs => some cs
  | cs => some cs

/-- A numeral without the zeros, and underscores among them, that it starts with. Where no other
    digit follows, the last of these characters stays. -/
def withoutLeadingZeros? (cs : List Char) : Option (List Char) :=
  let isFiller (c : Char) : Bool := c == '0' || c == '_'
  match cs with
  | '0' :: _ =>
    let last := (cs.takeWhile isFiller).getLast?.toList
    match cs.dropWhile isFiller with
    | [] => some last
    | '.' :: rest => some (last ++ '.' :: rest)
    | c :: rest => if c.isDigit then some (c :: rest) else none
  | c :: _ => if c.isDigit || c = '-' then some cs else none
  | [] => none

/-- A numeral without a decimal point that has zeros and nothing else after it. -/
def withoutZeroFraction (cs : List Char) : List Char :=
  match cs.dropWhile (· != '.') with
  | _ :: z :: zs => if (z :: zs).all (· == '0') then cs.takeWhile (· != '.') else cs
  | _ => cs

def hasDoubleUnderscore : List Char → Bool
  | '_' :: '_' :: _ => true
  | _ :: cs => hasDoubleUnderscore cs
  | [] => false

/-- A numeral without its underscores, if they are single ones inside it. -/
def withoutUnderscores (cs : List Char) : List Char :=
  if cs.head? = some '_' || cs.getLast? = some '_' || hasDoubleUnderscore cs then cs
  else cs.filter (· != '_')

/-- The plain form of a numeral with blanks around it, a plus sign, leading zeros, a fraction of
    zeros or underscores. -/
def plainForm? (cs : List Char) : Option (List Char) := do
  let unsigned ← withoutPlus? (trimPadding cs)
  let short ← withoutLeadingZeros? unsigned
  return withoutUnderscores (withoutZeroFraction short)

/-- An integer as text: plain, or with a plain form. -/
def integerText (text : String) : Except NumeralFault Int :=
  match plainInteger text.toList with
  | .error .malformed =>
    match plainForm? text.toList with
    | some cs => plainInteger cs
    | none => .error .malformed
  | result => result

end Timespan.Service
