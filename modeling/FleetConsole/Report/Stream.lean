import FleetConsole.Report.Channel
import FleetConsole.Report.Criteria
import FleetConsole.Report.Format
import FleetConsole.Report.Options
import FleetConsole.Report.Page
import FleetConsole.Report.Xml

/-! A report as the pieces of output a reader gets: an opening, one piece for each row, and for XML
a closing. A report whose first page fails never begins; one that fails later ends in the fault,
without a closing. -/
namespace FleetConsole.Report

/-- Storage that can answer every criteria. -/
abbrev Source (σ : Type) := (c : Criteria) → Fetch σ c.Row

/-- What a reader gets, one piece after the other. -/
structure Output where
  items : List (Except Fault String)
  /-- Whether there is an end to it; else these are the first pieces. -/
  ends : Bool

namespace Output

def chunks (o : Output) : List String := o.items.filterMap Except.toOption

def failure? (o : Output) : Option Fault :=
  o.items.findSome? fun
    | .ok _ => none
    | .error e => some e

/-- How the pieces end. -/
def ending (o : Output) : Ending :=
  match o.failure? with
  | some e => .failed e
  | none => if o.ends then .complete else .endless

/-- Appends the pieces to a body, up to a fault. -/
def collectOnto (ends : Bool) (body : String) :
    List (Except Fault String) → Option (Except Fault String)
  | [] => if ends then some (.ok body) else none
  | .ok chunk :: rest => collectOnto ends (body ++ chunk) rest
  | .error e :: _ => some (.error e)

/-- The whole report as one text, or the fault it ends in; an endless one is never whole. -/
def collect? (o : Output) : Option (Except Fault String) := collectOnto o.ends "" o.items

end Output

/-- How a report is written: its kind decides the style of lines and the root element. -/
structure Writer (Row : Type) where
  kind : ReportKind
  format : ReportFormat
  layout : Layout Row
  base : LinkBase

namespace Writer

variable {Row : Type}

def opening (w : Writer Row) : String :=
  match w.format with
  | .csv => Csv.headerLine w.layout.headers
  | .xml => Xml.openDocument w.kind.xmlRoot

def chunk (w : Writer Row) (row : Row) : String :=
  let fields := w.layout.fields w.base row
  match w.format with
  | .csv => Csv.line w.kind.csvStyle fields
  | .xml => Xml.element w.layout.element w.layout.tags fields

/-- What is written behind the last row. -/
def foot (w : Writer Row) : List String :=
  match w.format with
  | .csv => []
  | .xml => [Xml.closeDocument w.kind.xmlRoot]

/-- Writes rows as they come. A fault is written as it is, and nothing behind it. -/
def sendRows (w : Writer Row) (ends : Bool) : List (Except Fault Row) → List (Except Fault String)
  | [] => if ends then w.foot.map .ok else []
  | .ok row :: rest => .ok (w.chunk row) :: sendRows w ends rest
  | .error e :: _ => [.error e]

/-- The pieces in the order they are written. -/
def send {σ : Type} (w : Writer Row) (run : Run σ Row) : List (Except Fault String) :=
  .ok w.opening :: w.sendRows run.ending.ends run.items

/-- Writes a report whose first page is there. -/
def output {σ : Type} (w : Writer Row) (capacity : Nat) (run : Run σ Row) : Output :=
  ⟨(Channel.ofCapacity capacity).relay (w.send run), run.ending.ends⟩

/-- Writes the rows that are fetched page by page. A fault on the first page is the answer; any
later one is part of the output. -/
def report {σ : Type} (w : Writer Row) (fetch : Fetch σ Row) (options : StreamOptions) (s : σ) :
    Except Fault Output × σ :=
  match fetch.start options.pageSize s with
  | (.error e, s) => (.error e, s)
  | (.ok page, s) =>
    let run := fetch.rowsFrom (.first options.pageSize) page s
    (.ok (w.output options.channelCapacity run), run.state)

end Writer

/-- Runs a report of what the source has for the criteria. -/
def startReport {σ : Type} (source : Source σ) (c : Criteria) (format : ReportFormat)
    (base : LinkBase) (options : StreamOptions) (s : σ) : Except Fault Output × σ :=
  Writer.report ⟨c.kind, format, c.layout, base⟩ (source c) options s

end FleetConsole.Report
