/-
  Yearly rules in POSIX notation, as in the environment of a process: EST5EDT,M3.2.0,M11.1.0.

  A rule is applied in all years. The library of a host begins with 1970 and does not change the
  clocks before, so that a rule as here keeps standard time there; hosts are taken without that
  limit.
-/
import Timespan.Text.Numeral
import Timespan.Zone.Rule

namespace Timespan.Zone.Posix

open Timespan.Text

/-- Skips the name of a kind of time, a run of letters or a text in angle brackets. -/
def skipName? : List Char → Option (List Char)
  | '<' :: cs =>
    match cs.dropWhile (· != '>') with
    | '>' :: rest => some rest
    | _ => none
  | c :: cs => if c.isAlpha then some (cs.dropWhile Char.isAlpha) else none
  | [] => none

/-- A run of ASCII digits and its value. -/
def number? (cs : List Char) : Option (Int × List Char) :=
  let ds := cs.takeWhile Char.isDigit
  if ds.isEmpty then none else some (digitsValue ds, cs.dropWhile Char.isDigit)

/-- Hours, with minutes and seconds if given, as seconds. -/
def clockTime? (cs : List Char) : Option (Int × List Char) := do
  let (hours, rest) ← number? cs
  match rest with
  | ':' :: rest =>
    let (minutes, rest) ← number? rest
    match rest with
    | ':' :: rest =>
      let (seconds, rest) ← number? rest
      return (hours * 3600 + minutes * 60 + seconds, rest)
    | _ => return (hours * 3600 + minutes * 60, rest)
  | _ => return (hours * 3600, rest)

/-- A clock time with at most one sign. -/
def signedTime? : List Char → Option (Int × List Char)
  | '-' :: cs => (clockTime? cs).map fun (t, rest) => (-t, rest)
  | '+' :: cs => clockTime? cs
  | cs => clockTime? cs

/-- A change of the clocks, Mm.w.d with an optional time; without one it is at two in the
    morning. -/
def changeover? : List Char → Option (Changeover × List Char)
  | 'M' :: cs => do
    let (month, rest) ← number? cs
    let '.' :: rest := rest | none
    let (week, rest) ← number? rest
    let '.' :: rest := rest | none
    let (weekday, rest) ← number? rest
    match rest with
    | '/' :: rest =>
      let (time, rest) ← signedTime? rest
      return (⟨month, week, weekday, time⟩, rest)
    | _ => return (⟨month, week, weekday, 7200⟩, rest)
  | _ => none

/-- The two changes of a year. -/
def changeovers? : List Char → Option (Changeover × Changeover)
  | ',' :: cs => do
    let (starts, rest) ← changeover? cs
    let ',' :: rest := rest | none
    let (stops, []) ← changeover? rest | none
    return (starts, stops)
  | _ => none

/-- A rule in POSIX notation. Offsets count westward; summer time is an hour ahead unless it has
    an offset of its own. -/
def rule? (cs : List Char) : Option Rule := do
  let (west, rest) ← signedTime? (← skipName? cs)
  if rest.isEmpty then return ⟨-west, none⟩
  let rest ← skipName? rest
  let (summerWest, rest) := (signedTime? rest).getD (west - 3600, rest)
  let (starts, stops) ← changeovers? rest
  return ⟨-west, some ⟨-summerWest, starts, stops⟩⟩

/-- The zone that a POSIX text describes; a text that describes none stands for UTC. -/
def zone (text : String) : Zone :=
  match rule? text.toList with
  | some r => Zone.ofRule r
  | none => Zone.utc

end Timespan.Zone.Posix
