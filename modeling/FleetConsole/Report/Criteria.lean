import FleetConsole.Report.Filter
import FleetConsole.Report.Kind

/-! What a report asks of the inventory: the kind of rows and which of them. -/
namespace FleetConsole.Report

/-- The parameters of a report as they come with a request. -/
structure ReportQuery where
  /-- One row for each resource, in place of counts. -/
  details : Bool
  resourceTypeId : Option Int32
  version : Option String
  alertPriority : Option String
  operationRequestStatus : Option String
  drift : DriftParameters
  deriving DecidableEq, Repr

inductive Criteria
  | inventorySummary
  | inventoryDetails (filter : TypeFilter)
  | alertDefinitions
  | configurationHistory
  | driftCompliance (filter : TypeFilter)
  | suspectMetrics
  | recentAlerts (filter : AlertFilter)
  | recentOperations (filter : OperationFilter)
  | recentDrift (filter : DriftFilter)

namespace Criteria

def kind : Criteria → ReportKind
  | .inventorySummary | .inventoryDetails _ => .inventorySummary
  | .alertDefinitions => .alertDefinitions
  | .configurationHistory => .configurationHistory
  | .driftCompliance _ => .driftCompliance
  | .suspectMetrics => .suspectMetrics
  | .recentAlerts _ => .recentAlerts
  | .recentOperations _ => .recentOperations
  | .recentDrift _ => .recentDrift

/-- The rows that answer the criteria. -/
abbrev Row : Criteria → Type
  | .inventorySummary => TypeCountRow
  | .inventoryDetails _ => InventoryDetailRow
  | .alertDefinitions => AlertDefinitionRow
  | .configurationHistory => ConfigurationUpdateRow
  | .driftCompliance _ => DriftComplianceRow
  | .suspectMetrics => SuspectMetricRow
  | .recentAlerts _ => AlertRow
  | .recentOperations _ => OperationRow
  | .recentDrift _ => DriftRow

def layout : (c : Criteria) → Layout c.Row
  | .inventorySummary => TypeCountRow.layout
  | .inventoryDetails _ => InventoryDetailRow.layout
  | .alertDefinitions => AlertDefinitionRow.layout
  | .configurationHistory => ConfigurationUpdateRow.layout
  | .driftCompliance _ => DriftComplianceRow.layout
  | .suspectMetrics => SuspectMetricRow.layout
  | .recentAlerts _ => AlertRow.layout
  | .recentOperations _ => OperationRow.layout
  | .recentDrift _ => DriftRow.layout

theorem length_fields (c : Criteria) (base : LinkBase) (row : c.Row) :
    (c.layout.fields base row).length = c.layout.columns.length := by
  cases c <;> rfl

def typeFilter (q : ReportQuery) : TypeFilter := ⟨q.resourceTypeId.map TypeId.mk, q.version⟩

/-- The criteria of a request; only the parameters of its report are looked at. -/
def ofQuery (k : ReportKind) (q : ReportQuery) (now : Instant) : Except Fault Criteria :=
  match k with
  | .inventorySummary =>
    .ok (if q.details then .inventoryDetails (typeFilter q) else .inventorySummary)
  | .alertDefinitions => .ok .alertDefinitions
  | .configurationHistory => .ok .configurationHistory
  | .driftCompliance => .ok (.driftCompliance (typeFilter q))
  | .suspectMetrics => .ok .suspectMetrics
  | .recentAlerts =>
    (AlertFilter.read q.alertPriority q.drift.startTime q.drift.endTime now).map .recentAlerts
  | .recentOperations =>
    (OperationFilter.read q.operationRequestStatus q.drift.startTime q.drift.endTime now).map
      .recentOperations
  | .recentDrift => (DriftFilter.read q.drift now).map .recentDrift

end Criteria

end FleetConsole.Report
