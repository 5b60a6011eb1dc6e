/-
  The options of the program and of its one command, and the invocation that arguments come to.
-/
import Timespan.CommandLine.Arguments
import Timespan.Settings.Value

namespace Timespan.CommandLine

inductive MainFlag where
  | help | verbose
deriving DecidableEq, Repr

def mainFlags : List (Flag MainFlag) :=
  [⟨.help, ["-h", "--help"], false⟩, ⟨.verbose, ["--verbose", "-v"], false⟩]

inductive CommandFlag where
  | help | utc | zone | now | width | exclusive
deriving DecidableEq, Repr

def commandFlags : List (Flag CommandFlag) :=
  [⟨.help, ["-h", "--help"], false⟩, ⟨.utc, ["--utc"], false⟩, ⟨.zone, ["--tz"], true⟩,
   ⟨.now, ["--now"], true⟩, ⟨.width, ["--default-range"], true⟩,
   ⟨.exclusive, ["--exclusive"], false⟩]

/-- What an option was given: a value, or two hyphens, which stand for no value at all. -/
inductive Given (α : Type) where
  | value (a : α)
  | nothing
deriving DecidableEq, Repr

def Given.value? {α : Type} : Given α → Option α
  | .value a => some a
  | .nothing => none

/-- What the command is asked to do. Options that were not given leave the settings alone. -/
structure Invocation where
  expression? : Option String := none
  utc : Bool := false
  zone? : Option (Given String) := none
  now? : Option (Given Int) := none
  width? : Option (Given Int) := none
  exclusive : Bool := false
  extras : List String := []
deriving DecidableEq, Repr

/-- How the reading of arguments ends before anything is done. -/
inductive Ending where
  | help
  /-- An error of usage, under the name of the program or of its command. -/
  | refused (speaker message : String)
  /-- The present instant is a reading of the host's clock outside the calendar. -/
  | outsideCalendar
deriving DecidableEq, Repr

def program : String := "time-range-parser"

def command : String := "parse"

def programCommand : String := program ++ " " ++ command

def argumentFault (title message : String) : String := "argument " ++ title ++ ": " ++ message

def readNow (host : Zone) (title text : String) : Except Ending Int :=
  match Value.instant host text with
  | .ok t => .ok t
  | .error .outsideCalendar => .error .outsideCalendar
  | .error _ =>
    .error (.refused programCommand (argumentFault title
      ("Invalid instant '" ++ text ++ "', expected epoch ms or ISO 8601")))

def readWidth (title text : String) : Except Ending Int :=
  match Value.width text with
  | .ok n => .ok n
  | .error _ =>
    .error (.refused programCommand (argumentFault title
      ("Invalid range '" ++ text ++ "', expected a non-negative number of ms")))

/-- The value of an option by `read`. -/
def readGiven {α : Type} (text : String) (read : String → Except Ending α) :
    Except Ending (Option (Given α)) :=
  if text = "--" then .ok (some .nothing) else (read text).map (some ∘ .value)

/-- What an event of the command does to the invocation. -/
def Invocation.apply (host : Zone) (i : Invocation) :
    Event CommandFlag → Except Ending Invocation
  | .flag .help => .error .help
  | .flag .utc => .ok { i with utc := true }
  | .flag .exclusive => .ok { i with exclusive := true }
  | .flag _ => .ok i
  | .value f text =>
    match f.id with
    | .zone => do .ok { i with zone? := ← readGiven text .ok }
    | .now => do .ok { i with now? := ← readGiven text (readNow host f.title) }
    | .width => do .ok { i with width? := ← readGiven text (readWidth f.title) }
    | _ => .ok i
  | .positional text => .ok { i with expression? := some text }
  | .command _ => .ok i
  | .extra text => .ok { i with extras := i.extras ++ [text] }
  | .fault fault => .error (.refused programCommand fault.message)

/-- The arguments after the command. -/
def readCommand (host : Zone) (arguments : List String) : Except Ending Invocation := do
  let pieces ← (classifyAll commandFlags arguments).mapError
    fun fault => .refused programCommand fault.message
  let i ← (scanOne commandFlags none .awaited pieces).foldlM (Invocation.apply host) {}
  if i.expression?.isSome then .ok i
  else .error (.refused programCommand "the following arguments are required: expression")

/-- The events of the program in order, up to its command. -/
def readEvents (host : Zone) (extras : List String) :
    List (Event MainFlag) → Except Ending Invocation
  | [] => .error (.refused program "the following arguments are required: cmd")
  | .flag .help :: _ => .error .help
  | .extra text :: events => readEvents host (extras ++ [text]) events
  | .fault fault :: _ => .error (.refused program fault.message)
  | .command (name :: arguments) :: _ =>
    if name = command then do
      let i ← readCommand host arguments
      .ok { i with extras := extras ++ i.extras }
    else
      .error (.refused program (argumentFault "cmd"
        ("invalid choice: " ++ Text.quoted name ++ " (choose from " ++ Text.quoted command ++ ")")))
  | _ :: events => readEvents host extras events

/-- The invocation that a command line asks for. Arguments that nothing makes use of are refused
    last of all. -/
def readArguments (host : Zone) (arguments : List String) : Except Ending Invocation := do
  let pieces ← (classifyAll mainFlags arguments).mapError
    fun fault => .refused program fault.message
  let i ← readEvents host [] (scanCommand mainFlags none pieces)
  if i.extras.isEmpty then .ok i
  else .error (.refused program ("unrecognized arguments: " ++ " ".intercalate i.extras))

end Timespan.CommandLine
