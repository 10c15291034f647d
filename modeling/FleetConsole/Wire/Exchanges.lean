import FleetConsole.Database.Migration
import FleetConsole.Http.Response

/-! What the console says to clients and to its database, in JSON. -/
namespace FleetConsole

namespace Http

/-- A report that does not end well is `broken`; what was sent before stays sent. -/
def Response.toJson (r : Response) : Json :=
  let start : List (String × Json) :=
    [("status", .ofNat r.status), ("contentType", .ofOption .text r.contentType)]
  match r.body with
  | .empty => .object (start ++ [("body", .text "")])
  | .text s => .object (start ++ [("body", .text s)])
  | .json j => .object (start ++ [("json", j)])
  | .rejection => .object [("status", .ofNat r.status), ("rejected", .bool true)]
  | .report output =>
    .object (start ++ [("body", .text (Report.Xml.concat output.chunks))] ++
      match output.ending with
      | .complete => []
      | _ => [("broken", .bool true)])

end Http

namespace Database

def Param.toJson : Param → Json
  | .null => .null
  | .integer n => .integer n
  | .text s => .text s
  | .texts ss => .ofList .text ss
  | .time t => .integer t.millis

def Statement.toJson (q : Statement) : Json :=
  .object [("sql", .text q.sql), ("params", .ofList Param.toJson q.params)]

/-- The bounds of transactions look like statements without parameters. -/
def Command.toJson : Command → Json
  | .begin => Statement.toJson ⟨"BEGIN", []⟩
  | .commit => Statement.toJson ⟨"COMMIT", []⟩
  | .rollback => Statement.toJson ⟨"ROLLBACK", []⟩
  | .statement q => q.toJson
  | .migration m => .object [("migration", .ofNat m.version)]
  | .recording m => .object [("recorded", .ofNat m.version)]

def Migration.toJson (m : Migration) : Json :=
  .list [.ofNat m.version, .text m.description, .text m.sql]

/-- Names the version that a migration stopped at. -/
def MigrationError.toJson : MigrationError → Json
  | .unfinished version => .object [("dirty", .integer version)]
  | .changed version => .object [("mismatch", .integer version)]
  | .failed version _ => .object [("failed", .integer version)]
  | .database _ => .text "error"

end Database

end FleetConsole
