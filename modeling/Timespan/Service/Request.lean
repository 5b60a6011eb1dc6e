/-
  Requests: an expression with the settings to read it by, checked field by field.
-/
import Timespan.Interpreter
import Timespan.Service.Payload

namespace Timespan.Service

structure Request where
  expression : String
  config : Config
deriving DecidableEq, Repr

/-- A refused value and where in the request it stands. -/
structure Complaint where
  place : List String
  refusal : Refusal
deriving DecidableEq, Repr

/-- A field's value by `read`, or `default?` where the field is absent. -/
def field {α : Type} (fields : List (String × Payload)) (name : String) (default? : Option α)
    (read : Payload → Except Refusal α) : Except Complaint α :=
  match fields.lookup name with
  | some p => (read p).mapError (⟨["body", name], ·⟩)
  | none =>
    match default? with
    | some d => .ok d
    | none => .error ⟨["body", name], .missing⟩

def expressionOf (p : Payload) : Except Refusal String := do
  let s ← p.asText
  if s = "" then .error .emptyText else .ok s

def widthOf (p : Payload) : Except Refusal Int := do
  let n ← p.asInteger
  if n < 0 then .error .negative else .ok n

def complaint? {α : Type} : Except Complaint α → Option Complaint
  | .error c => some c
  | .ok _ => none

/-- A request, or all the complaints about it in the order of its fields. -/
def Request.read (body : Payload) : Except (List Complaint) Request :=
  match body with
  | .object fields =>
    let expression := field fields "time_range" none expressionOf
    let utc := field fields "utc" (some false) Payload.asSwitch
    let zone := field fields "tz" (some none) (Payload.orNull Payload.asText)
    let now := field fields "now" (some none) (Payload.orNull Payload.asInteger)
    let width := field fields "default_range_ms" (some defaultWidth) widthOf
    match expression, utc, zone, now, width with
    | .ok expression, .ok utc, .ok zone?, .ok now?, .ok width =>
      .ok ⟨expression, { utc, zone?, now?, width }⟩
    | _, _, _, _, _ =>
      .error ([complaint? expression, complaint? utc, complaint? zone, complaint? now,
        complaint? width].filterMap id)
  | .null => .error [⟨["body"], .missing⟩]
  | _ => .error [⟨["body"], .notAnObject⟩]

end Timespan.Service
