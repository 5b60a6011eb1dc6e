/-
  Command lines: options by name, by an unambiguous beginning of a long name or by letters run
  together, each with or without a value, among positional arguments. A scan turns arguments into
  events in the order in which they take effect.
-/
import Timespan.Text.Digit
import Timespan.Text.Lines
import Timespan.Text.Quoted

namespace Timespan.CommandLine

/-- An option: its names as declared, and whether it takes a value. -/
structure Flag (ι : Type) where
  id : ι
  names : List String
  valued : Bool

inductive UsageFault where
  | ambiguous (argument : String) (candidates : List String)
  | valueExpected (flag : String)
  | valueIgnored (flag value : String)
deriving DecidableEq, Repr

def UsageFault.message : UsageFault → String
  | .ambiguous argument candidates =>
    "ambiguous option: " ++ argument ++ " could match " ++ ", ".intercalate candidates
  | .valueExpected flag => "argument " ++ flag ++ ": expected one argument"
  | .valueIgnored flag value =>
    "argument " ++ flag ++ ": ignored explicit argument " ++ Text.quoted value

/-- An option as errors name it. -/
def Flag.title {ι : Type} (f : Flag ι) : String := "/".intercalate f.names

/-- What an argument looks like. -/
inductive Piece (ι : Type) where
  | plain
  /-- Two hyphens, after which all arguments are plain. -/
  | separator
  /-- An option under one of its names, with the value written in the same argument. -/
  | option (flag : Flag ι) (name : String) (value? : Option String)
  | unknownOption

/-- All names with their options, in the order of declaration. -/
def namedFlags {ι : Type} (flags : List (Flag ι)) : List (String × Flag ι) :=
  flags.flatMap fun f => f.names.map (·, f)

/-- The text before the first equals sign, and the text after it if there is one. -/
def splitValue (cs : List Char) : String × Option String :=
  match cs.dropWhile (· != '=') with
  | [] => (String.ofList cs, none)
  | _ :: value => (String.ofList (cs.takeWhile (· != '=')), some (String.ofList value))

/-- Options that an argument may mean without giving one's full name. A long argument may be the
    beginning of a name; a short one a one-letter name with its value after the letter. -/
def candidates {ι : Type} (flags : List (Flag ι)) (argument : String) :
    List (Flag ι × String × Option String) :=
  match argument.toList with
  | '-' :: '-' :: cs =>
    let (start, value?) := splitValue ('-' :: '-' :: cs)
    (namedFlags flags).filterMap fun (name, f) =>
      if start.toList.isPrefixOf name.toList then some (f, name, value?) else none
  | '-' :: c :: cs =>
    (namedFlags flags).filterMap fun (name, f) =>
      if name = String.ofList ['-', c] then some (f, name, some (String.ofList cs)) else none
  | _ => []

/-- Is this a minus sign with digits after it, perhaps around one point? -/
def isNegativeNumber : List Char → Bool
  | '-' :: cs =>
    let cs := Text.chomp cs
    let whole := cs.takeWhile Text.isDigit
    match cs.dropWhile Text.isDigit with
    | [] => !whole.isEmpty
    | '.' :: ds => !ds.isEmpty && ds.all Text.isDigit
    | _ => false
  | _ => false

/-- What an argument before the separator looks like. Negative numbers and arguments with a space
    are plain though they start with a hyphen. -/
def classify {ι : Type} (flags : List (Flag ι)) (argument : String) :
    Except UsageFault (Piece ι) :=
  let cs := argument.toList
  let called? (name : String) : Option (Flag ι) := (namedFlags flags).lookup name
  match cs with
  | '-' :: _ :: _ =>
    match called? argument, splitValue cs with
    | some f, _ => .ok (.option f argument none)
    | none, (name, value?) =>
      match if value?.isSome then called? name else none with
      | some f => .ok (.option f name value?)
      | none =>
        match candidates flags argument with
        | [(f, name, value?)] => .ok (.option f name value?)
        | [] =>
          if isNegativeNumber cs || cs.contains ' ' then .ok .plain else .ok .unknownOption
        | cands => .error (.ambiguous argument (cands.map (·.2.1)))
  | _ => .ok .plain

/-- All arguments with what they look like. -/
def classifyAll {ι : Type} (flags : List (Flag ι)) :
    List String → Except UsageFault (List (String × Piece ι))
  | [] => .ok []
  | a :: as =>
    if a = "--" then .ok ((a, .separator) :: as.map (·, .plain))
    else do
      let piece ← classify flags a
      let pieces ← classifyAll flags as
      .ok ((a, piece) :: pieces)

/-- What an argument brings about. -/
inductive Event (ι : Type) where
  | flag (id : ι)
  | value (flag : Flag ι) (text : String)
  | positional (text : String)
  /-- The first plain argument with all after it, where a command stands. -/
  | command (arguments : List String)
  | extra (text : String)
  | fault (fault : UsageFault)

/-- What an option brings about, and the option that still waits for its value. -/
abbrev Effect (ι : Type) := List (Event ι) × Option (Flag ι)

/-- An option without a value in its own argument. -/
def Flag.bare {ι : Type} (f : Flag ι) : Effect ι :=
  if f.valued then ([], some f) else ([.flag f.id], none)

/-- An option with text after its name. The text is its value; or, after a letter that takes none,
    further letters, of which the last may have the rest for its value. -/
def cluster {ι : Type} (flags : List (Flag ι)) (f : Flag ι) (name : String) :
    List Char → Except UsageFault (Effect ι)
  | [] => if f.valued then .ok ([.value f ""], none) else .error (.valueIgnored f.title "")
  | c :: cs =>
    let text := String.ofList (c :: cs)
    let next := String.ofList ['-', c]
    if f.valued then .ok ([.value f text], none)
    else if ['-', '-'].isPrefixOf name.toList then .error (.valueIgnored f.title text)
    else match (namedFlags flags).lookup next with
      | none => .error (.valueIgnored f.title text)
      | some g => do
        let (events, waiting?) ← if cs.isEmpty then .ok g.bare else cluster flags g next cs
        .ok (.flag f.id :: events, waiting?)

/-- What an option under one of its names brings about. -/
def optionEffect {ι : Type} (flags : List (Flag ι)) (f : Flag ι) (name : String)
    (value? : Option String) : Effect ι :=
  match value? with
  | none => f.bare
  | some value =>
    match cluster flags f name value.toList with
    | .ok effect => effect
    | .error fault => ([.fault fault], none)

/-- How far the reading of the one positional argument is. -/
inductive Place where
  | awaited
  /-- A separator has been passed over: the next argument is the positional one. -/
  | announced
  /-- It was the last argument: a separator now is passed over. -/
  | justTaken
  | taken
deriving DecidableEq, Repr

/-- The place once another argument has gone by. -/
def Place.settle : Place → Place
  | .justTaken => .taken
  | place => place

/-- The events where one positional argument is expected. An option that waits for its value takes
    a plain argument and nothing else. A separator directly before or after the positional argument
    is passed over, any other is left over. -/
def scanOne {ι : Type} (flags : List (Flag ι)) (waiting? : Option (Flag ι)) (place : Place) :
    List (String × Piece ι) → List (Event ι)
  | [] =>
    match waiting? with
    | some f => [.fault (.valueExpected f.title)]
    | none => []
  | (a, piece) :: rest =>
    match waiting?, piece, place with
    | some f, .plain, place => .value f a :: scanOne flags none place rest
    | some f, _, _ => [.fault (.valueExpected f.title)]
    | none, .option f name value?, place =>
      let (events, waiting?) := optionEffect flags f name value?
      events ++ scanOne flags waiting? place.settle rest
    | none, .plain, .awaited => .positional a :: scanOne flags none .justTaken rest
    | none, .plain, .announced => .positional a :: scanOne flags none .taken rest
    | none, .separator, .justTaken => scanOne flags none .taken rest
    | none, .separator, .awaited =>
      if rest.isEmpty then [.extra a] else scanOne flags none .announced rest
    | none, _, place => .extra a :: scanOne flags none place.settle rest

/-- The events where options stand before a command; the separator counts as one if anything
    follows it. -/
def scanCommand {ι : Type} (flags : List (Flag ι)) (waiting? : Option (Flag ι)) :
    List (String × Piece ι) → List (Event ι)
  | [] =>
    match waiting? with
    | some f => [.fault (.valueExpected f.title)]
    | none => []
  | (a, piece) :: rest =>
    match waiting?, piece with
    | some f, .plain => .value f a :: scanCommand flags none rest
    | some f, _ => [.fault (.valueExpected f.title)]
    | none, .option f name value? =>
      let (events, waiting?) := optionEffect flags f name value?
      events ++ scanCommand flags waiting? rest
    | none, .unknownOption => .extra a :: scanCommand flags none rest
    | none, .plain => [.command (a :: rest.map (·.1))]
    | none, .separator => if rest.isEmpty then [.extra a] else [.command (a :: rest.map (·.1))]

end Timespan.CommandLine
