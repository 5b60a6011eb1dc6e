/-
  The lines of a text.
-/
import Timespan.Text.Blank

namespace Timespan.Text

/-- The characters that end a line: line feed, vertical tab, form feed, carriage return, the
    ASCII file, group and record separators, NEL, and the Unicode line and paragraph separators. -/
def isLineBreak (c : Char) : Bool :=
  let n := c.toNat
  (0x0A ≤ n && n ≤ 0x0D) || (0x1C ≤ n && n ≤ 0x1E) || n == 0x85 || n == 0x2028 || n == 0x2029

/-- The lines of a text without their breaks. A carriage return and a line feed that follows it
    are one break; a break at the end of the text starts no further line. -/
def lines : List Char → List (List Char)
  | [] => []
  | '\r' :: '\n' :: cs => [] :: lines cs
  | c :: cs =>
    if isLineBreak c then [] :: lines cs else extendFirst c (lines cs)

/-- A text without the line feed at its end, if there is one. -/
def chomp (cs : List Char) : List Char := if cs.getLast? = some '\n' then cs.dropLast else cs

end Timespan.Text
