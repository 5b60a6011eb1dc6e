/-
  The three forms of a term: a keyword, a date or time literal, a duration.
-/
import Timespan.Term.Duration
import Timespan.Term.Keyword
import Timespan.Term.Literal

namespace Timespan.Term

/-- A text in the form in which terms are told apart: tidy and in lower case. -/
def canonical (text : List Char) : List Char := (Text.tidy text).map Text.lower

/-- Letters alone, once the spaces are gone. -/
def isWord (word : List Char) : Bool := !word.isEmpty && word.all Text.isLowerLetter

/-- Resolves one side of an expression against the clock's time at `origin`. -/
def resolve (c : WallClock) (origin : Int) (text : List Char) : Except Fault Term :=
  let term := canonical text
  let word := term.filter (· != ' ')
  if isWord word then Keyword.resolveWord c origin word
  else
    match (Literal.read? term).filter (·.grain?.isSome) with
    | some l => (l.resolve c origin term).map .interval
    | none =>
      match DurationForm.read? term with
      | some d => d.millis.map .duration
      | none => .error (.rejected (.unknownTerm (String.ofList text)))

end Timespan.Term
