import FleetConsole.Config
import FleetConsole.Database.Migration
import FleetConsole.Database.Reports
import FleetConsole.Http.Service
import FleetConsole.Inventory.Demo
import FleetConsole.Inventory.Rows

/-! The console as a server: the routes over a database if one is configured, and otherwise over an
inventory in memory, beside a route that says that the server is up. -/
namespace FleetConsole

namespace Server

variable {σ : Type}

/-- The routes over an inventory in memory. -/
def overInventory (σ : Type) (inv : Inventory) (publicUrl : Option String)
    (options : Report.StreamOptions) : Http.Service σ where
  reports := inv.reportSource σ
  resourceTree parent rendered s := (inv.resourceTree parent rendered, s)
  groupTree id s := (inv.groupTree id, s)
  publicUrl
  options

def overDatabase (server : Database.Server σ) (config : ConsoleConfig) : Http.Service σ where
  reports := Database.reportSource server
  resourceTree parent rendered := Database.resourceTree server parent rendered
  groupTree id := Database.groupTree server id
  publicUrl := config.publicUrl
  options := config.streamOptions

/-- Why the server does not start. -/
inductive StartError
  | connection
  | migration
  deriving DecidableEq, Repr

def StartError.message : StartError → String
  | .connection => "failed to connect to postgres"
  | .migration => "failed to run inventory migrations"

/-- The inventory that stands in for a database: a demonstration, if the configuration asks. -/
def inventoryWithoutDatabase (config : ConsoleConfig) (now : Instant) : Inventory :=
  if config.seedDemo then .demo now else .empty

/-- Brings a database up to date and serves it. -/
def startOnDatabase (server : Database.Server σ) (record : Database.MigrationRecord)
    (config : ConsoleConfig) (s : σ) : Except StartError (Http.Service σ) × σ :=
  match (Database.migrate server record).run s with
  | (.ok (), s) => (.ok (overDatabase server config), s)
  | (.error _, s) => (.error .migration, s)

/-- Starts the server. `connect` gives the database at an address, if there is one. -/
def start (connect : String → Option (Database.Server σ × Database.MigrationRecord))
    (config : ConsoleConfig) (now : Instant) (s : σ) : Except StartError (Http.Service σ) × σ :=
  match config.databaseUrl with
  | none =>
    (.ok (overInventory σ (inventoryWithoutDatabase config now) config.publicUrl
      config.streamOptions), s)
  | some url =>
    match connect url with
    | none => (.error .connection, s)
    | some (server, record) => startOnDatabase server record config s

def healthJson : Json := .object [("ok", .bool true)]

/-- Answers a request to the server: the route `/healthz`, or one of the service. -/
def answer (service : Http.Service σ) (now : Instant) (r : Http.Request) (s : σ) :
    Http.Response × σ :=
  if r.target.segments = ["healthz".toList] then
    if r.method = "GET" then (.ofJson healthJson, s)
    else if r.method = "HEAD" then ((Http.Response.ofJson healthJson).withoutBody, s)
    else (.methodNotAllowed, s)
  else service.answer now r s

end Server

end FleetConsole
