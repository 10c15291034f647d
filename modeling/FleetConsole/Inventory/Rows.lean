import FleetConsole.Inventory.Basic
import FleetConsole.Report.Stream

/-! The rows of reports over an inventory in memory. -/
namespace FleetConsole.Inventory

open Report

/-- The type of a resource as rows show it, if the catalog knows the type. -/
def typeRef? (inv : Inventory) (r : Resource) : Option TypeRef :=
  (inv.catalog.type? r.typeId).map fun t =>
    ⟨t.id, t.name, t.plugin, t.category, inv.versions.get? r.id⟩

/-- Orders rows of counts by the name of the type in lower case, then by version. A type without a
version comes first. -/
structure CountKey where
  name : String
  version : Option String
  deriving DecidableEq, Repr

namespace CountKey

def ofTypeRef (t : TypeRef) : CountKey := ⟨Text.lower t.typeName, t.version⟩

def versionLe : Option String → Option String → Bool
  | none, _ => true
  | some _, none => false
  | some a, some b => a ≤ b

def le (a b : CountKey) : Bool :=
  a.name < b.name || (a.name == b.name && versionLe a.version b.version)

end CountKey

/-- Counts of resources by key. A row shows the type of the first resource with its key. -/
def typeCounts (inv : Inventory) : List TypeCountRow :=
  let groups := Tree.groupByKey CountKey.ofTypeRef (inv.resources.filterMap inv.typeRef?)
  (groups.mergeSort fun a b => a.1.le b.1).filterMap fun group =>
    group.2.head?.map fun t => ⟨t, group.2.length⟩

def detailRow? (inv : Inventory) (r : Resource) : Option InventoryDetailRow :=
  (inv.typeRef? r).map fun t => ⟨t, .ofResource r, r.description, r.availability⟩

/-- Rows by the name of the type, then of the resource. -/
def detailLe (a b : InventoryDetailRow) : Bool :=
  a.type.typeName < b.type.typeName ||
    (a.type.typeName == b.type.typeName && a.resource.name ≤ b.resource.name)

def complianceRow? (inv : Inventory) (r : Resource) : Option DriftComplianceRow := do
  let inCompliance ← inv.driftCompliance.get? r.id
  let t ← inv.typeRef? r
  return ⟨t, .ofResource r, inCompliance⟩

/-- Newest first; rows of one time stay in their order. -/
def newestFirst {Row : Type} (time : Row → Instant) (rows : List Row) : List Row :=
  rows.mergeSort fun a b => time b ≤ time a

/-- All rows that answer the criteria, in the order of the report. -/
def rows (inv : Inventory) : (c : Criteria) → List c.Row
  | .inventorySummary => inv.typeCounts
  | .inventoryDetails f =>
    ((inv.resources.filterMap inv.detailRow?).filter fun row => f.accepts row.type).mergeSort
      detailLe
  | .alertDefinitions => inv.alertDefinitions
  | .configurationHistory => newestFirst ConfigurationUpdateRow.submittedAt inv.configurationUpdates
  | .driftCompliance f =>
    (inv.resources.filterMap inv.complianceRow?).filter fun row => f.accepts row.type
  | .suspectMetrics => inv.suspectMetrics
  | .recentAlerts f => newestFirst AlertRow.createdAt (inv.alerts.filter f.accepts)
  | .recentOperations f => newestFirst OperationRow.createdAt (inv.operations.filter f.accepts)
  | .recentDrift f => newestFirst DriftRow.createdAt (inv.drift.filter f.accepts)

/-- Answers every page of every report. -/
def reportSource (inv : Inventory) (σ : Type) : Source σ := fun c page s =>
  (.ok (Page.ofRows (inv.rows c) page), s)

end FleetConsole.Inventory
