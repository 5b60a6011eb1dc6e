/-
  Values of a request's body, and what they come to as fields of a request. Text stands in for a
  switch or an integer where its form allows.
-/
import Timespan.Service.Numeral

namespace Timespan.Service

/-- A JSON value. `decimal m e` is the floating-point number nearest to m / 10^e: a number written
    with a point or an exponent. -/
inductive Payload where
  | null
  | bool (value : Bool)
  | integer (value : Int)
  | decimal (mantissa : Int) (exponent : Nat)
  | text (value : String)
  | list (values : List Payload)
  | object (fields : List (String × Payload))
deriving Inhabited

/-- Why a value is refused. -/
inductive Refusal where
  | missing
  | notAnObject
  | notText
  | emptyText
  | notASwitch
  | unreadableSwitch
  | notAnInteger
  | unreadableInteger
  | oversizedInteger
  | fractional
  | negative
deriving DecidableEq, Repr

def Refusal.code : Refusal → String
  | .missing => "missing"
  | .notAnObject => "model_attributes_type"
  | .notText => "string_type"
  | .emptyText => "string_too_short"
  | .notASwitch => "bool_type"
  | .unreadableSwitch => "bool_parsing"
  | .notAnInteger => "int_type"
  | .unreadableInteger => "int_parsing"
  | .oversizedInteger => "int_parsing_size"
  | .fractional => "int_from_float"
  | .negative => "greater_than_equal"

def trueWords : List String := ["1", "on", "t", "true", "y", "yes"]

def falseWords : List String := ["0", "off", "f", "false", "n", "no"]

namespace Payload

def switchOf (n : Int) : Except Refusal Bool :=
  if n = 0 then .ok false else if n = 1 then .ok true else .error .unreadableSwitch

/-- A switch. Of the numbers too large for a machine word none is even tried. -/
def asSwitch : Payload → Except Refusal Bool
  | .bool b => .ok b
  | .integer n =>
    if isMachineSized n || n = Int.negOfNat (Nat.pow 2 63) then switchOf n else .error .notASwitch
  | .decimal m e =>
    match (whole? m e).filter isMachineSized with
    | some n => switchOf n
    | none => .error .notASwitch
  | .text s =>
    let word := String.ofList (s.toList.map Char.toLower)
    if trueWords.contains word then .ok true
    else if falseWords.contains word then .ok false
    else .error .unreadableSwitch
  | _ => .error .notASwitch

/-- An integer. A floating-point number has to be one, and has to fit into a machine word. -/
def asInteger : Payload → Except Refusal Int
  | .bool b => .ok (if b then 1 else 0)
  | .integer n => .ok n
  | .decimal m e =>
    match whole? m e with
    | some n => if isMachineSized n then .ok n else .error .oversizedInteger
    | none => .error .fractional
  | .text s =>
    match integerText s with
    | .ok n => .ok n
    | .error .malformed => .error .unreadableInteger
    | .error .overlong => .error .oversizedInteger
  | _ => .error .notAnInteger

def asText : Payload → Except Refusal String
  | .text s => .ok s
  | _ => .error .notText

/-- A value or nothing at all. -/
def orNull {α : Type} (read : Payload → Except Refusal α) : Payload → Except Refusal (Option α)
  | .null => .ok none
  | p => (read p).map some

end Payload

end Timespan.Service
