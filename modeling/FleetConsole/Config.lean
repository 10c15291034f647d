import FleetConsole.Fault
import FleetConsole.Network.SocketAddress
import FleetConsole.Number.Numeral
import FleetConsole.Report.Options
import FleetConsole.Text.Blank
import FleetConsole.Text.Case

/-! How the console server is set up, read from named texts such as environment variables. -/
namespace FleetConsole

structure ConsoleConfig where
  bind : Network.SocketAddress
  /-- Stands for scheme and host in the links of reports. -/
  publicUrl : Option String
  reportPageSize : Nat
  reportChannelCapacity : Nat
  databaseUrl : Option String
  /-- Whether an inventory in memory starts with demonstration data. -/
  seedDemo : Bool
  deriving DecidableEq, Repr

namespace ConsoleConfig

def initial : ConsoleConfig where
  bind := .v4 [127, 0, 0, 1] 7080
  publicUrl := none
  reportPageSize := Report.defaultPageSize
  reportChannelCapacity := Report.defaultChannelCapacity
  databaseUrl := none
  seedDemo := false

def maxReportPageSize : Nat := 1000

/-- A text with something other than blanks in it. -/
def nonBlank (value : Option String) : Option String :=
  value.filter fun s => !Text.isBlankText s

def readBind (raw : String) : Except Fault Network.SocketAddress :=
  match Network.SocketAddress.ofText? (Text.trim raw) with
  | some address => .ok address
  | none => .error (.invalid "CONSOLE_BIND must be a socket address"
      ("invalid CONSOLE_BIND '" ++ raw ++ "': invalid socket address syntax"))

def readSize (name : String) (value : Option String) : Except Fault (Option Nat) :=
  match nonBlank value with
  | none => .ok none
  | some raw =>
    match Number.Range.unsigned64.read (Text.trim raw) with
    | .ok n => .ok (some n.toNat)
    | .error e => .error (.invalid "Report settings must be positive integers"
        ("invalid " ++ name ++ " '" ++ raw ++ "': " ++ e.message))

def isYes (s : String) : Bool := ["1", "true", "yes"].contains (Text.asciiLower (Text.trim s))

def withoutTrailingSlashes (s : String) : String :=
  String.ofList (Text.dropTrailing (· = '/') s.toList)

/-- Reads a configuration; of several faults the address comes first, then the page size. -/
def read (lookup : String → Option String) : Except Fault ConsoleConfig := do
  let bind ← readBind ((lookup "CONSOLE_BIND").getD "127.0.0.1:7080")
  let pageSize ← readSize "CONSOLE_REPORT_PAGE_SIZE" (lookup "CONSOLE_REPORT_PAGE_SIZE")
  let capacity ←
    readSize "CONSOLE_REPORT_CHANNEL_CAPACITY" (lookup "CONSOLE_REPORT_CHANNEL_CAPACITY")
  return {
    bind
    publicUrl := (nonBlank (lookup "CONSOLE_PUBLIC_URL")).map withoutTrailingSlashes
    reportPageSize := max 1 (min maxReportPageSize (pageSize.getD Report.defaultPageSize))
    reportChannelCapacity := max 1 (capacity.getD Report.defaultChannelCapacity)
    databaseUrl := nonBlank (lookup "DATABASE_URL")
    seedDemo := (lookup "CONSOLE_SEED_DEMO").any isYes }

def streamOptions (c : ConsoleConfig) : Report.StreamOptions :=
  ⟨c.reportPageSize, c.reportChannelCapacity⟩

end ConsoleConfig

end FleetConsole
