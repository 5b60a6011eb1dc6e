/-
  Settings files: lines KEY=VALUE, among blank lines and comments.
-/
import Timespan.Text.Blank
import Timespan.Text.Lines

namespace Timespan.Assignments

open Timespan.Text

/-- A text without the runs of the character `q` at its two ends. -/
def strip (q : Char) (cs : List Char) : List Char :=
  ((cs.dropWhile (· == q)).reverse.dropWhile (· == q)).reverse

/-- A value without blanks around it, without single quotes around what is left, and without
    double quotes around what is left then. -/
def value (cs : List Char) : List Char := strip '"' (strip '\x27' (trim cs))

/-- The assignment on a line. Blank lines, lines that start with a hash, lines without an equals
    sign and lines without a key hold none. -/
def ofLine? (line : List Char) : Option (String × String) :=
  let cs := trim line
  match cs with
  | '#' :: _ => none
  | _ =>
    match cs.dropWhile (· != '=') with
    | [] => none
    | _ :: after =>
      match trim (cs.takeWhile (· != '=')) with
      | [] => none
      | key => some (String.ofList key, String.ofList (value after))

/-- The assignments of a settings file, in order. -/
def read (text : String) : List (String × String) := (lines text.toList).filterMap ofLine?

/-- The value of the last assignment to a key. -/
def find? (assignments : List (String × String)) (key : String) : Option String :=
  assignments.reverse.lookup key

end Timespan.Assignments
