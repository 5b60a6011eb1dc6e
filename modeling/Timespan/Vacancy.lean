/-
  Expressions read without a present instant or without a default width. Such an expression has a
  range all the same, as long as nothing has to be reckoned from the missing value.
-/
import Timespan.Interpreter

namespace Timespan

/-- Which of the two values are missing. -/
structure Vacancy where
  now : Bool
  width : Bool
deriving DecidableEq, Repr

inductive VacancyFault where
  | fault (fault : Fault)
  /-- A missing value is needed. -/
  | valueNeeded
deriving DecidableEq, Repr

namespace Vacancy

/-- Were the clock's fields at the origin read for a term? Every range takes its fields from there,
    and fields are refused only after that. -/
def readsClock : Except Fault Term → Bool
  | .ok (.interval _) => true
  | .error (.rejected (.invalidDate _ _)) => true
  | .error (.rejected (.fieldsOutOfRange _)) => true
  | .error (.rejected (.instantOutOfRange _)) => true
  | _ => false

/-- Resolves a term; without a present instant only the present instant itself and durations are
    left. -/
def term (v : Vacancy) (c : WallClock) (origin : Int) (text : List Char) :
    Except VacancyFault Term :=
  let result := Term.resolve c origin text
  if v.now && readsClock result then .error .valueNeeded else result.mapError .fault

def isDuration : Option Term → Bool
  | some (.duration _) => true
  | _ => false

/-- Is the range reckoned from the present instant, where the terms are that and durations? Only an
    interval without a duration takes it as it is. -/
def reckonsNow (operator? : Option Operator) (left? right? : Option Term) : Bool :=
  match operator? with
  | some .interval | some .arrow => isDuration left? || isDuration right?
  | some .around | none => true

/-- Is the range reckoned with the default width? -/
def reckonsWidth : Option Operator → Option Term → Option Term → Bool
  | none, some (.now _), _ => true
  | some .around, _, none => true
  | _, _, _ => false

/-- The range of a text. Where the present instant is missing, all its bounds stand for that. -/
def resolve (v : Vacancy) (atlas : Atlas) (config : Config) (clock : Int)
    (text? : Option String) : Except VacancyFault Span :=
  match expressionText? text? with
  | none => .error (.fault (.rejected .emptyInput))
  | some s => do
    let origin := if v.now then 0 else config.now?.getD clock
    let term := v.term (atlas.clock config.mode) origin
    let e ← (Expression.read (Text.tidyPlain s.toList)).mapError (.fault <| .rejected ·)
    let left? ← e.left?.mapM term
    let right? ← e.right?.mapM term
    let span ← (Span.ofTerms e.operator? left? right? origin config.width).mapError
      (.fault <| .rejected ·)
    if v.now && reckonsNow e.operator? left? right? ||
        v.width && reckonsWidth e.operator? left? right? then
      .error .valueNeeded
    else .ok span

end Vacancy

end Timespan
