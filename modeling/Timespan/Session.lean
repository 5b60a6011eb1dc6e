/-
  Sessions: one configuration and a clock that is set by hand.
-/
import Timespan.Interpreter

namespace Timespan

/-- A change of one field of a configuration. -/
inductive ConfigChange where
  | utc (value : Bool)
  | zone (value : Option String)
  | now (value : Option Int)
  | width (value : Int)
  | unknown (field : String)
deriving DecidableEq, Repr

/-- The configuration after a change; there is none for a field that it does not have. -/
def ConfigChange.apply? (c : Config) : ConfigChange → Option Config
  | .utc value => some { c with utc := value }
  | .zone value => some { c with zone? := value }
  | .now value => some { c with now? := value }
  | .width value => some { c with width := value }
  | .unknown _ => none

structure Session where
  config : Config
  clock : Int
deriving DecidableEq, Repr

namespace Session

inductive Step where
  | interpret (text? : Option String)
  | resolve (text? : Option String)
  | setClock (instant : Int)
  | tick (millis : Int)
  | replace (changes : List ConfigChange)
deriving DecidableEq, Repr

inductive Reply where
  | outcome (outcome : Outcome)
  | span (span : Span)
  | clock (instant : Int)
  | config (config : Config)
  | fault (fault : Fault)
  | unknownField
deriving DecidableEq, Repr

/-- A step's reply and the session after it. Whatever fails changes nothing. -/
def step (atlas : Atlas) (s : Session) : Step → Session × Reply
  | .interpret text? =>
    match Timespan.interpret atlas s.config s.clock text? with
    | .ok outcome => (s, .outcome outcome)
    | .error fault => (s, .fault fault)
  | .resolve text? =>
    match Timespan.resolve atlas s.config s.clock text? with
    | .ok span => (s, .span span)
    | .error fault => (s, .fault fault)
  | .setClock t => ({ s with clock := t }, .clock t)
  | .tick n => ({ s with clock := s.clock + n }, .clock (s.clock + n))
  | .replace changes =>
    match changes.foldlM ConfigChange.apply? s.config with
    | some config => ({ s with config }, .config config)
    | none => (s, .unknownField)

/-- The replies to a list of steps. -/
def run (atlas : Atlas) (s : Session) : List Step → List Reply
  | [] => []
  | st :: steps =>
    let (s, reply) := s.step atlas st
    reply :: run atlas s steps

end Session

end Timespan
