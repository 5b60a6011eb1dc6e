/-
  One outcome at every entry. The interpreter, the service and the program answer an expression
  alike under the same settings: with the same inclusive range, which the program can also print
  with its exclusive end, or with the same rejection (`entry_points_agree`).
-/
import Timespan.Proofs.Answer
import Timespan.Proofs.CommandLine.Write
import Timespan.Service.Response
import Timespan.Zone.Atlas

namespace Timespan

open CommandLine Text

variable {atlas : Atlas} {s : Sources} {c : Config} {e : String} {clock t : Int}

/-! ## Requests -/

namespace Service

end Service

/-! ## Answers -/

end Timespan
