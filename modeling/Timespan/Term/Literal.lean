/-
  Date and time literals: YYYY[-MM[-DD]] [H[H][:MM[:SS]]], either part optional.
-/
import Timespan.Term.Basic
import Timespan.Text.Lines
import Timespan.WallClock

namespace Timespan

open Timespan.Calendar

/-- A date, given to the year, the month or the day. -/
inductive DatePart where
  | year (year : Nat)
  | month (year month : Nat)
  | day (year month day : Nat)
deriving DecidableEq, Repr

/-- A time of day, given to the hour, the minute or the second. -/
inductive TimePart where
  | hour (hour : Nat)
  | minute (hour minute : Nat)
  | second (hour minute second : Nat)
deriving DecidableEq, Repr

structure Literal where
  date? : Option DatePart
  time? : Option TimePart
deriving DecidableEq, Repr

/-- The next four characters as a number, if all are digits. -/
def Literal.fourDigits? (cs : List Char) : Option (Nat × List Char) :=
  Text.nextNumber? Text.digit? 4 cs

/-- The next two characters as a number, if both are digits. -/
def Literal.twoDigits? (cs : List Char) : Option (Nat × List Char) :=
  Text.nextNumber? Text.digit? 2 cs

/-- The next two digits as a number, or the next one alone. -/
def Literal.hourDigits? (cs : List Char) : Option (Nat × List Char) :=
  (twoDigits? cs).or (Text.nextNumber? Text.digit? 1 cs)

/-- Does a text go on with a separator? Then a further field has to follow. -/
def Literal.after? (separator : Char) : List Char → Option (List Char)
  | c :: rest => if c = separator then some rest else none
  | [] => none

namespace DatePart

/-- The date at the start of a text and the rest of the text; a text that does not start with four
    digits has none, and one that breaks off after a hyphen is refused. -/
def read? (cs : List Char) : Option (Option DatePart × List Char) :=
  match Literal.fourDigits? cs with
  | none => some (none, cs)
  | some (y, rest) =>
    match Literal.after? '-' rest with
    | none => some (some (.year y), rest)
    | some rest => do
      let (m, rest) ← Literal.twoDigits? rest
      match Literal.after? '-' rest with
      | none => some (some (.month y m), rest)
      | some rest =>
        let (d, rest) ← Literal.twoDigits? rest
        some (some (.day y m d), rest)

def grain : DatePart → Grain
  | .year _ => .year
  | .month _ _ => .month
  | .day _ _ _ => .day

/-- Puts the date into fields; what it leaves open is the first of its kind. -/
def fill (v : Fields) : DatePart → Fields
  | .year y => { v with year := y, month := 1, day := 1 }
  | .month y m => { v with year := y, month := m, day := 1 }
  | .day y m d => { v with year := y, month := m, day := d }

end DatePart

namespace TimePart

/-- A whole text as a time of day; the empty text is none. -/
def read? : List Char → Option (Option TimePart)
  | [] => some none
  | cs => do
    let (h, rest) ← Literal.hourDigits? cs
    match Literal.after? ':' rest with
    | none => if rest.isEmpty then some (some (.hour h)) else none
    | some rest =>
      let (m, rest) ← Literal.twoDigits? rest
      match Literal.after? ':' rest with
      | none => if rest.isEmpty then some (some (.minute h m)) else none
      | some rest =>
        let (s, rest) ← Literal.twoDigits? rest
        if rest.isEmpty then some (some (.second h m s)) else none

def grain : TimePart → Grain
  | .hour _ => .hour
  | .minute _ _ => .minute
  | .second _ _ _ => .second

/-- Puts the time into fields; what it leaves open is zero. -/
def fill (v : Fields) : TimePart → Fields
  | .hour h => { v with hour := h, minute := 0, second := 0 }
  | .minute h m => { v with hour := h, minute := m, second := 0 }
  | .second h m s => { v with hour := h, minute := m, second := s }

end TimePart

namespace Literal

/-- A date, at most one space, and a time. -/
def read? (cs : List Char) : Option Literal := do
  let (date?, rest) ← DatePart.read? cs
  let rest := (after? ' ' rest).getD rest
  let time? ← TimePart.read? rest
  return ⟨date?, time?⟩

/-- A literal with or without a line feed at its end. -/
def ofLine? (cs : List Char) : Option Literal := read? (Text.chomp cs)

/-- The finest field given; `none` for a literal without parts. -/
def grain? (l : Literal) : Option Grain :=
  match l.time?, l.date? with
  | some t, _ => some t.grain
  | none, some d => some d.grain
  | none, none => none

/-- The fields of the literal's start. A time without a date is on the day of `origin`; a date
    without a time starts at midnight. -/
def complete (l : Literal) (origin : Fields) : Fields :=
  let dated := match l.date? with
    | some d => { d.fill origin with hour := 0, minute := 0, second := 0 }
    | none => origin
  let timed := match l.time? with
    | some t => t.fill dated
    | none => dated
  { timed with milli := 0 }

/-- The range of a literal, to its finest field; `text` is how it was written. -/
def resolve (c : WallClock) (origin : Int) (text : List Char) (l : Literal) :
    Except Fault Interval := do
  let v := l.complete (← c.fieldsAt origin)
  match l.grain? with
  | none => .error (.rejected (.unknownTerm (String.ofList text)))
  | some g =>
    match v.fault? with
    | some fault => .error (.rejected (.invalidDate (String.ofList text) fault))
    | none => c.interval v g 1

end Literal

end Timespan
