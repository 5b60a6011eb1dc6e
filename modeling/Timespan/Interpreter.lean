/-
  The interpreter of time range expressions: settings, the resolution of a text to a range, and
  the inclusive answer given to callers.
-/
import Timespan.Span
import Timespan.Term.Resolve
import Timespan.Text.Lookalike

namespace Timespan

/-- A day. -/
def defaultWidth : Int := 86400000

structure Config where
  /-- Read calendar fields in UTC and not from the host's clock. -/
  utc : Bool := false
  /-- A zone by name; it takes precedence over `utc`. -/
  zone? : Option String := none
  /-- The present instant, where it is not the clock's. -/
  now? : Option Int := none
  /-- How far the present instant and a widened term without a duration reach to both sides. -/
  width : Int := defaultWidth
deriving DecidableEq, Repr

def Config.mode (c : Config) : Mode := ⟨c.utc, c.zone?⟩

/-- A text that asks for no range. -/
def noFilter : String := "No filter"

/-- The text of an expression, if there is anything in it. -/
def expressionText? (text? : Option String) : Option String :=
  text?.filter fun s => !(Text.trim s.toList).isEmpty && s ≠ noFilter

/-- The range of an expression that is not empty. -/
def resolveExpression (clock : WallClock) (origin width : Int) (text : List Char) :
    Except Fault Span := do
  let e ← (Expression.read (Text.tidyPlain text)).mapError .rejected
  let left? ← e.left?.mapM (Term.resolve clock origin)
  let right? ← e.right?.mapM (Term.resolve clock origin)
  (Span.ofTerms e.operator? left? right? origin width).mapError .rejected

/-- The range of a text, where the clock shows `clock` as the present instant. -/
def resolve (atlas : Atlas) (config : Config) (clock : Int) (text? : Option String) :
    Except Fault Span :=
  match expressionText? text? with
  | none => .error (.rejected .emptyInput)
  | some s =>
    resolveExpression (atlas.clock config.mode) (config.now?.getD clock) config.width s.toList

/-- A range as it is reported: with its last instant, and the text it came from. -/
structure Report where
  first? : Option Int
  last? : Option Int
  text : String
deriving DecidableEq, Repr

inductive Outcome where
  | found (report : Report)
  | rejected (cause : Rejection)
deriving DecidableEq, Repr

def Report.of (s : Span) (text : String) : Report := ⟨s.start?, s.stop?.map (· - 1), text⟩

/-- Can both instants of a report be written? -/
def Report.isWritable (r : Report) : Bool := r.first?.all Text.writable && r.last?.all Text.writable

/-- The answer for a text. A rejection is an answer; an overlong numeral is not. -/
def interpret (atlas : Atlas) (config : Config) (clock : Int) (text? : Option String) :
    Except Fault Outcome :=
  match resolve atlas config clock text? with
  | .ok s => .ok (.found (Report.of s (text?.getD "")))
  | .error (.rejected cause) => .ok (.rejected cause)
  | .error .overlongNumeral => .error .overlongNumeral

end Timespan
