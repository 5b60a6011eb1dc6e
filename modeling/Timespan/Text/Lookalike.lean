/-
  Look-alike characters: dashes, arrows and full-width forms are read as the ASCII text that they
  stand for.
-/
import Timespan.Text.Blank

namespace Timespan.Text

/-- The ASCII reading of a character: dash variants are a hyphen, arrows an operator of two
    characters, full-width forms (U+FF01 to U+FF5E) lie 0xFEE0 above their ASCII counterparts. -/
def plain (c : Char) : List Char :=
  let n := c.toNat
  if n = 0x2012 ∨ n = 0x2013 ∨ n = 0x2014 ∨ n = 0x2212 then ['-']
  else if n = 0x2192 ∨ n = 0x27F6 then ['-', '>']
  else if n = 0x2194 then ['<', '>']
  else if n = 0x3000 then [' ']
  else if 0xFF01 ≤ n ∧ n ≤ 0xFF5E then [Char.ofNat (n - 0xFEE0)]
  else [c]

/-- A text with every look-alike replaced by its ASCII reading. -/
def plainText (cs : List Char) : List Char := cs.flatMap plain

/-- A text in plain characters, its words joined by single spaces. -/
def tidyPlain (cs : List Char) : List Char := tidy (plainText cs)

end Timespan.Text
