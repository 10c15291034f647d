import FleetConsole.Inventory.Basic
import FleetConsole.Wire.Reports

/-! Whole inventories from JSON: the entities, what is known about them, and the rows of reports. -/
namespace FleetConsole

namespace Report

/-- A name that stands there letter by letter. -/
private def verbatim? {α : Type} (name : α → String) (ofName : String → Option α) :
    Json → Option α :=
  Json.toName? fun s => (ofName s).filter fun a => name a = s

def ConfigurationUpdateRow.ofJson? (j : Json) : Option ConfigurationUpdateRow := do
  return {
    version := ← j.field? "version" Json.toInt32?
    resource := ← j.field? "resource" ResourceRef.ofJson?
    submittedAt := ← j.field? "submittedAt" Instant.ofJson?
    completedAt := ← j.maybe? "completedAt" Instant.ofJson?
    status := ← j.field? "status"
      (verbatim? ConfigurationUpdateStatus.name ConfigurationUpdateStatus.ofStored?)
    user := ← j.maybe? "user" Json.toText? }

def SuspectMetricRow.ofJson? (j : Json) : Option SuspectMetricRow := do
  return {
    scheduleId := ← j.field? "scheduleId" Json.toInt32?
    resource := ← j.field? "resource" ResourceRef.ofJson?
    metric := ← j.field? "metric" Json.toText?
    min := ← j.field? "min" Number.Double.ofJson?
    max := ← j.field? "max" Number.Double.ofJson?
    average := ← j.field? "average" Number.Double.ofJson? }

def AlertRow.ofJson? (j : Json) : Option AlertRow := do
  return {
    id := ← j.field? "id" Json.toInt32?
    createdAt := ← j.field? "createdAt" Instant.ofJson?
    definitionName := ← j.field? "definitionName" Json.toText?
    conditions := ← j.field? "conditions" (Json.toList? AlertCondition.ofJson?)
    priority := ← j.field? "priority" AlertPriority.ofJson?
    acknowledgedBy := ← j.maybe? "acknowledgedBy" Json.toText?
    resource := ← j.field? "resource" ResourceRef.ofJson?
    context := ← j.field? "context" AlertDefinitionContext.ofJson? }

def OperationRow.ofJson? (j : Json) : Option OperationRow := do
  return {
    historyId := ← j.field? "historyId" Json.toInt32?
    createdAt := ← j.field? "createdAt" Instant.ofJson?
    operation := ← j.field? "operation" Json.toText?
    requester := ← j.field? "requester" Json.toText?
    status := ← j.field? "status" (verbatim? OperationStatus.name OperationStatus.ofName?)
    resource := ← j.field? "resource" ResourceRef.ofJson? }

def DriftRow.ofJson? (j : Json) : Option DriftRow := do
  return {
    id := ← j.field? "id" Json.toText?
    createdAt := ← j.field? "createdAt" Instant.ofJson?
    definition := ← j.field? "definition" Json.toText?
    snapshot := ← j.field? "snapshot" Json.toInt32?
    category := ← j.field? "category" (verbatim? DriftCategory.name DriftCategory.ofName?)
    path := ← j.field? "path" Json.toText?
    resource := ← j.field? "resource" ResourceRef.ofJson? }

end Report

namespace Inventory

open Report

private def listOr? {α : Type} (j : Json) (name : String) (read : Json → Option α)
    (default : List α) : Option (List α) :=
  j.fieldOr? name (Json.toList? read) default

/-- Reads the parts of an inventory; each part that is left out is taken from `start`. -/
def ofJson? (start : Inventory) (j : Json) : Option Inventory := do
  return {
    catalog := ← j.fieldOr? "catalog" Catalog.ofJson? start.catalog
    resources := ← listOr? j "resources" Resource.ofJson? start.resources
    groups := ← listOr? j "groups" ResourceGroup.ofJson? start.groups
    clusters := ← listOr? j "clusters"
      (Json.toPair? GroupId.ofJson? (Json.toList? Cluster.ofJson?)) start.clusters
    locked := ← listOr? j "locked" ResourceId.ofJson? start.locked
    versions := ← listOr? j "versions" (Json.toPair? ResourceId.ofJson? Json.toText?)
      start.versions
    driftCompliance := ← listOr? j "driftCompliance"
      (Json.toPair? ResourceId.ofJson? Json.toBool?) start.driftCompliance
    alertDefinitions := ← listOr? j "alertDefinitions" AlertDefinitionRow.ofJson?
      start.alertDefinitions
    configurationUpdates := ← listOr? j "configurationUpdates" ConfigurationUpdateRow.ofJson?
      start.configurationUpdates
    suspectMetrics := ← listOr? j "suspectMetrics" SuspectMetricRow.ofJson? start.suspectMetrics
    alerts := ← listOr? j "alerts" AlertRow.ofJson? start.alerts
    operations := ← listOr? j "operations" OperationRow.ofJson? start.operations
    drift := ← listOr? j "drift" DriftRow.ofJson? start.drift }

end Inventory

end FleetConsole
