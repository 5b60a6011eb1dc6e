/-
  Lower case, so far as it can yield an ASCII letter.
-/

namespace Timespan.Text

/-- Lower case for the ASCII letters and the kelvin sign, the one character outside ASCII whose
    lower case is an ASCII letter. All others stay: no keyword, unit or number holds them in
    either case. -/
def lower (c : Char) : Char := if c.toNat = 0x212A then 'k' else c.toLower

def isLowerLetter (c : Char) : Bool := 'a' ≤ c && c ≤ 'z'

end Timespan.Text
