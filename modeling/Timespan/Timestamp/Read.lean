/-
  Timestamps in ISO 8601 text: a calendar or week date, any one character, a time of day with an
  optional fraction, and an optional offset; each part with or without its separators. Instants
  are read from such text or from a plain number of milliseconds.
-/
import Timespan.Text.Numeral
import Timespan.Timestamp.Basic

namespace Timespan

open Timespan.Calendar

namespace Timestamp

/-- The number that the next `n` ASCII digits denote. -/
def number? (n : Nat) (cs : List Char) : Option (Nat × List Char) :=
  Text.nextNumber? Text.asciiDigit? n cs

/-- Does a text start with an ASCII digit? -/
def startsWithDigit : List Char → Bool
  | c :: _ => c.isDigit
  | [] => false

/-- The day number of a calendar date in the calendar. -/
def dateDay? (year month day : Nat) : Option Int :=
  match (Fields.mk year month day 0 0 0 0).fault? with
  | none => some (Date.dayNumber ⟨year, month, day⟩)
  | some _ => none

/-- The day number of a week date in the calendar. -/
def weekDay? (year week day : Nat) : Option Int :=
  (isoWeekDay? year week day).filter fun n => inCalendar (n * dayMillis)

/-- Is the first digit after YYYYWww the day of the week? Times of day have an even number of
    digits, so a run of them that starts with the day and its separator is even, and one that
    starts with the separator is odd; a digit by itself is the day. -/
def dayFollowsWeek (cs : List Char) : Bool :=
  let n := (cs.takeWhile Char.isDigit).length
  n = 1 || (n % 2 = 0 && n ≠ 0)

/-- The day number of the date at the start of a text, and the rest of the text. After
    YYYY-Www a hyphen and two digits are a separator and an hour, not a day. -/
def date? (cs : List Char) : Option (Int × List Char) := do
  let (year, rest) ← number? 4 cs
  match rest with
  | '-' :: 'W' :: rest =>
    let (week, rest) ← number? 2 rest
    match rest with
    | ['-'] => none
    | '-' :: d :: after =>
      if startsWithDigit after then return (← weekDay? year week 1, rest)
      else return (← weekDay? year week (← Text.asciiDigit? d), after)
    | _ => return (← weekDay? year week 1, rest)
  | '-' :: rest =>
    let (month, rest) ← number? 2 rest
    let '-' :: rest := rest | none
    let (day, rest) ← number? 2 rest
    return (← dateDay? year month day, rest)
  | 'W' :: rest =>
    let (week, rest) ← number? 2 rest
    if dayFollowsWeek rest then
      let (day, rest) ← number? 1 rest
      return (← weekDay? year week day, rest)
    else return (← weekDay? year week 1, rest)
  | _ =>
    let (month, rest) ← number? 2 rest
    let (day, rest) ← number? 2 rest
    return (← dateDay? year month day, rest)

/-- A time of day as written; its fields need not be in range. -/
structure Reading where
  hour : Nat
  minute : Nat
  second : Nat
  micro : Nat
deriving DecidableEq, Repr

/-- What follows a field of two digits. -/
inductive Continuation where
  /-- Nothing to read: at most one ASCII character is left. -/
  | over (rest : List Char)
  | field (rest : List Char)
  | fraction (rest : List Char)

/-- How a reading goes on after a field: with a point or a comma and a fraction, or with a further
    field, after a colon where the first two fields have one between them and at once elsewhere. -/
def continuation? (separated : Bool) : List Char → Option Continuation
  | [] => some (.over [])
  | [c] => if c.toNat < 0x80 then some (.over [c]) else none
  | c :: rest =>
    if separated && c = ':' then some (.field rest)
    else if c = '.' ∨ c = ',' then some (.fraction rest)
    else if separated then none
    else some (.field (c :: rest))

/-- The microseconds of a fraction of a second and what is left after its digits. The first six
    characters have to be digits, or all if there are fewer; further digits are dropped. -/
def fraction? (cs : List Char) : Option (Nat × List Char) :=
  let ds := cs.take 6
  if ds.isEmpty || !ds.all Char.isDigit then none
  else some (Text.digitsValue ((ds ++ List.replicate 6 '0').take 6),
    (cs.drop 6).dropWhile Char.isDigit)

/-- At most `n` further fields, the microseconds of the fraction, and what is left. After the last
    field a fraction may follow without a mark of its own, as a further field would. -/
def furtherFields? (separated : Bool) (n : Nat) (cs : List Char) :
    Option (List Nat × Nat × List Char) := do
  match ← continuation? separated cs with
  | .over rest => return ([], 0, rest)
  | .fraction rest =>
    let (micro, rest) ← fraction? rest
    return ([], micro, rest)
  | .field rest =>
    match n with
    | 0 =>
      let (micro, rest) ← fraction? rest
      return ([], micro, rest)
    | n + 1 =>
      let (value, rest) ← number? 2 rest
      let (values, micro, rest) ← furtherFields? separated n rest
      return (value :: values, micro, rest)

/-- A text as HH[:MM[:SS]][.f] or HH[MM[SS]][.f], and what is left of it. The fraction is one of a
    second after whichever field it stands. -/
def Reading.read? (cs : List Char) : Option (Reading × List Char) := do
  let (hour, rest) ← number? 2 cs
  let (values, micro, rest) ← furtherFields? (rest.head? = some ':') 2 rest
  return (⟨hour, values.getD 0 0, values.getD 1 0, micro⟩, rest)

/-- Is nothing left of a text? It ends at a null character. -/
def isOver : List Char → Bool
  | [] => true
  | c :: _ => c.toNat = 0

def Reading.seconds (r : Reading) : Int := r.hour * 3600 + r.minute * 60 + r.second

def Reading.micros (r : Reading) : Int := r.seconds * 1000000 + r.micro

/-- A time of day on the clock: hours to 23, minutes and seconds to 59. -/
def Reading.isValid (r : Reading) : Bool := r.hour < 24 && r.minute < 60 && r.second < 60

/-- An offset is a sign and a reading of less than a day with nothing left. Its fraction counts
    only beside whole seconds. -/
def signedOffset? (sign : Char) (cs : List Char) : Option Int := do
  let (r, rest) ← Reading.read? cs
  let size := if r.seconds = 0 then 0 else r.micros
  if isOver rest && size < 86400000000 then return if sign = '-' then -size else size else none

/-- A time of day with or without an offset after it. What is left of the time is passed over
    where an offset follows. -/
def timeOfDay? (cs : List Char) : Option (Reading × Option Int) := do
  let isSign (c : Char) : Bool := c == '+' || c == '-'
  let (r, rest) ← Reading.read? (cs.takeWhile (!isSign ·))
  if !r.isValid then none
  else match cs.dropWhile (!isSign ·) with
    | [] => if isOver rest then return (r, none) else none
    | sign :: offset => return (r, some (← signedOffset? sign offset))

/-- A text in which every Z is written as the offset that it stands for. -/
def expandZulu (cs : List Char) : List Char :=
  cs.flatMap fun c => if c = 'Z' then ['+', '0', '0', ':', '0', '0'] else [c]

/-- Reads a timestamp. The character after the date is a separator whatever it is, so that in
    `2001-09-09+00:00` the sign is one and midnight is the host's. -/
def read? (cs : List Char) : Option Timestamp := do
  let (day, rest) ← date? (expandZulu cs)
  let midnight := day * dayMillis * 1000
  match rest with
  | [] => return ⟨midnight, none⟩
  | _ :: time =>
    let (r, offset?) ← timeOfDay? time
    return ⟨midnight + r.micros, offset?⟩

end Timestamp

/-- Why a text names no instant. -/
inductive InstantFault where
  | malformed
  /-- A reading of the host's clock whose instant lies outside the calendar. -/
  | outsideCalendar
deriving DecidableEq, Repr

/-- The instant that a text names: a number of milliseconds if it consists of digits, and what
    looks like digits, after any hyphens; else a timestamp. -/
def readInstant (host : Zone) (text : List Char) : Except InstantFault Int :=
  let cs := Text.trim text
  let digits := cs.dropWhile (· == '-')
  if !digits.isEmpty && digits.all Text.isDigitLike then
    match Text.integer? cs with
    | some n => .ok n
    | none => .error .malformed
  else
    match Timestamp.read? cs with
    | none => .error .malformed
    | some s =>
      match s.instant host with
      | .ok t => .ok t
      | .error .shownOutside => .error .malformed
      | .error .foundOutside => .error .outsideCalendar

end Timespan
