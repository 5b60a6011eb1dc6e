/-
  Responses to requests.
-/
import Timespan.Service.Request
import Timespan.Timestamp.Write

namespace Timespan.Service

inductive Response where
  /-- The range, with its first and last instant also as timestamps. -/
  | found (report : Report) (firstText? lastText? : Option String)
  | rejected (cause : Rejection)
  | invalid (complaints : List Complaint)
  /-- The service is up. -/
  | healthy
deriving DecidableEq, Repr

def Response.status : Response → Nat
  | .found _ _ _ | .healthy => 200
  | .rejected _ => 400
  | .invalid _ => 422

/-- The answer to a request. There is none with a numeral that is too long. -/
def Request.answer (atlas : Atlas) (clock : Int) (request : Request) : Except Fault Response := do
  match ← interpret atlas request.config clock (some request.expression) with
  | .rejected cause => .ok (.rejected cause)
  | .found r =>
    if r.isWritable then
      .ok (.found r (r.first?.bind writeInstant?) (r.last?.bind writeInstant?))
    else .error .overlongNumeral

/-- The answer to a body, by whatever reads it as a request. -/
def answerBy {β : Type} (read : β → Except (List Complaint) Request) (atlas : Atlas) (clock : Int)
    (body : β) : Except Fault Response :=
  match read body with
  | .error complaints => .ok (.invalid complaints)
  | .ok request => request.answer atlas clock

/-- The answer to a request's body. -/
def answer (atlas : Atlas) (clock : Int) (body : Payload) : Except Fault Response :=
  answerBy Request.read atlas clock body

/-- The answer to the question whether the service is up. -/
def health : Response := .healthy

end Timespan.Service
