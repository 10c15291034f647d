import FleetConsole.Fault
import FleetConsole.Json

/-! Faults in JSON, for those who look behind the summary. -/
namespace FleetConsole

def FaultKind.name : FaultKind → String
  | .database => "Database"
  | .forbidden => "Forbidden"
  | .invalidInput => "InvalidInput"
  | .notAcceptable => "NotAcceptable"
  | .notFound => "NotFound"
  | .unknown => "Unknown"

/-- The wording of a database is its own, so it stays out. -/
def Cause.publicText : Cause → String
  | .stated s => s
  | .reported _ => "(database)"

def Fault.toJson (e : Fault) : Json :=
  .object [("error", .text e.kind.name), ("code", .text e.code), ("public", .text e.summary),
    ("message", .text e.cause.publicText)]

/-- A result, or the fault in its place. -/
def Json.orFault {α : Type} (write : α → Json) : Except Fault α → Json
  | .ok a => write a
  | .error e => e.toJson

/-- The fault, or null for success. -/
def Json.faultOrNull : Except Fault Unit → Json := orFault fun _ => .null

end FleetConsole
