import FleetConsole.Fault
import FleetConsole.Report.Csv

/-! The reports the console serves. -/
namespace FleetConsole.Report

inductive ReportKind
  | inventorySummary | alertDefinitions | configurationHistory | driftCompliance | suspectMetrics
  | recentAlerts | recentOperations | recentDrift
  deriving DecidableEq, Repr

namespace ReportKind

def all : List ReportKind :=
  [.inventorySummary, .alertDefinitions, .configurationHistory, .driftCompliance,
    .suspectMetrics, .recentAlerts, .recentOperations, .recentDrift]

/-- The name in the report's address, and of the root element of its document. -/
def path : ReportKind → String
  | .inventorySummary => "inventorySummary"
  | .alertDefinitions => "alertDefinitions"
  | .configurationHistory => "configurationHistory"
  | .driftCompliance => "driftCompliance"
  | .suspectMetrics => "suspectMetrics"
  | .recentAlerts => "recentAlerts"
  | .recentOperations => "recentOperations"
  | .recentDrift => "recentDrift"

def xmlRoot (k : ReportKind) : String := k.path

def supportsXml : ReportKind → Bool
  | .inventorySummary | .alertDefinitions | .suspectMetrics => true
  | _ => false

/-- Only the history of configurations keeps its fields whole. -/
def csvStyle : ReportKind → CsvStyle
  | .configurationHistory => .quote
  | _ => .sanitize

def ofPath? (s : String) : Option ReportKind := all.find? (·.path = s)

@[simp] theorem ofPath?_path (k : ReportKind) : ofPath? k.path = some k := by
  cases k <;> decide

def named (s : String) : Except Fault ReportKind :=
  match ofPath? s with
  | some k => .ok k
  | none => .error (.notFound "Report not found" ("no report named " ++ s))

end ReportKind

end FleetConsole.Report
