/-
  White space: which characters count as blank, trimming, and the words of a text.
  `tidy` is the spacing normal form: words joined by single spaces.
-/

namespace Timespan.Text

/-- The 29 blank characters: the ASCII controls that move the print position, the four ASCII
    separators, the space, NEL, and the Unicode space, line and paragraph separators. -/
def isBlank (c : Char) : Bool :=
  let n := c.toNat
  (0x09 ≤ n && n ≤ 0x0D) || (0x1C ≤ n && n ≤ 0x20) || n == 0x85 || n == 0xA0 || n == 0x1680 ||
    (0x2000 ≤ n && n ≤ 0x200A) || n == 0x2028 || n == 0x2029 || n == 0x202F || n == 0x205F ||
    n == 0x3000

def trimStart (cs : List Char) : List Char := cs.dropWhile isBlank

def trimEnd (cs : List Char) : List Char := (cs.reverse.dropWhile isBlank).reverse

/-- The text without the blanks at its two ends. -/
def trim (cs : List Char) : List Char := trimEnd (trimStart cs)

/-- Puts a character at the start of the first of some pieces, or makes it the only piece. -/
def extendFirst (c : Char) : List (List Char) → List (List Char)
  | [] => [[c]]
  | w :: ws => (c :: w) :: ws

/-- Does a text go on with a character that is not blank? -/
def startsWord : List Char → Bool
  | [] => false
  | c :: _ => !isBlank c

/-- The maximal runs of non-blank characters, in order. -/
def words : List Char → List (List Char)
  | [] => []
  | c :: cs =>
    if isBlank c then words cs
    else if startsWord cs then extendFirst c (words cs)
    else [c] :: words cs

/-- Words written one after the other with a space between. -/
def unwords (ws : List (List Char)) : List Char := List.intercalate [' '] ws

/-- The words of a text joined by single spaces. -/
def tidy (cs : List Char) : List Char := unwords (words cs)

/-- The text without its blanks. -/
def squeeze (cs : List Char) : List Char := cs.filter (fun c => !isBlank c)

end Timespan.Text
