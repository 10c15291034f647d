import FleetConsole.Report.Page

/-! Pages that fail, to see what a report makes of it. -/
namespace FleetConsole.Report

structure Outage where
  /-- The number of the page that fails. -/
  page : Option Nat
  fault : Fault
  /-- Whether the number of all rows stays unknown. -/
  hidesTotal : Bool
  deriving DecidableEq, Repr

/-- Fetches pages under an outage, and notes the numbers of the pages asked for. -/
def Fetch.withOutage {Row : Type} (fetch : Fetch (List Nat) Row) (o : Outage) :
    Fetch (List Nat) Row := fun c asked =>
  let asked := asked ++ [c.number]
  if o.page = some c.number then (.error o.fault, asked)
  else
    let (answer, asked) := fetch c asked
    (answer.map fun page => if o.hidesTotal then { page with total := none } else page, asked)

end FleetConsole.Report
