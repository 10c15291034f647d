import FleetConsole.Instant
import FleetConsole.Number.Double
import FleetConsole.Report.Alert
import FleetConsole.Report.Link
import FleetConsole.Resource
import FleetConsole.Group

/-! The rows of the reports, and how each is laid out in columns. -/
namespace FleetConsole.Report

/-- A column has a header in comma-separated lines and a tag in XML. -/
structure Column where
  header : String
  tag : String
  deriving DecidableEq, Repr

/-- How rows of one kind are written. -/
structure Layout (Row : Type) where
  columns : List Column
  /-- The XML element of a row. -/
  element : String
  fields : LinkBase → Row → List String

def Layout.headers {Row : Type} (l : Layout Row) : List String := l.columns.map Column.header

def Layout.tags {Row : Type} (l : Layout Row) : List String := l.columns.map Column.tag

/-- The resource a row is about. -/
structure ResourceRef where
  id : ResourceId
  name : String
  ancestry : Option String
  deriving DecidableEq, Repr

namespace ResourceRef

def ofResource (r : Resource) : ResourceRef := ⟨r.id, r.name, r.ancestry⟩

def ancestryText (r : ResourceRef) : String := FleetConsole.ancestryText r.ancestry

end ResourceRef

def yesNo (b : Bool) : String := if b then "Yes" else "No"

/-- A type of resources as rows show it. -/
structure TypeRef where
  typeId : TypeId
  typeName : String
  plugin : String
  category : Category
  version : Option String
  deriving DecidableEq, Repr

namespace TypeRef

def columns : List Column :=
  [⟨"Resource Type", "resourceType"⟩, ⟨"Plugin", "plugin"⟩, ⟨"Category", "category"⟩,
    ⟨"Version", "version"⟩]

def fields (t : TypeRef) : List String :=
  [t.typeName, t.plugin, t.category.displayName, t.version.getD ""]

end TypeRef

/-- The number of resources of one type and version. -/
structure TypeCountRow where
  type : TypeRef
  count : Nat
  deriving DecidableEq, Repr

def TypeCountRow.layout : Layout TypeCountRow where
  columns := TypeRef.columns ++ [⟨"Count", "count"⟩]
  element := "resourceTypeCount"
  fields _ row := row.type.fields ++ [toString row.count]

structure InventoryDetailRow where
  type : TypeRef
  resource : ResourceRef
  description : Option String
  availability : Availability
  deriving DecidableEq, Repr

def InventoryDetailRow.layout : Layout InventoryDetailRow where
  columns := TypeRef.columns ++ [⟨"Name", "name"⟩, ⟨"Ancestry", "ancestry"⟩,
    ⟨"Description", "description"⟩, ⟨"Availability", "availability"⟩,
    ⟨"Details URL", "detailsUrl"⟩]
  element := "resource"
  fields base row := row.type.fields ++ [row.resource.name, row.resource.ancestryText,
    row.description.getD "", row.availability.name, base.resourceUrl row.resource.id ""]

/-- Where the alert definition of a resource comes from. -/
inductive AlertDefinitionParent
  | none
  | template (id : Int32)
  | group (id : GroupId)
  deriving DecidableEq, Repr

def AlertDefinitionParent.text : AlertDefinitionParent → String
  | .none => "Self"
  | .template _ => "Template"
  | .group _ => "Group"

structure AlertDefinitionRow where
  id : Int32
  name : String
  description : Option String
  enabled : Bool
  priority : AlertPriority
  parent : AlertDefinitionParent
  resource : ResourceRef
  deriving DecidableEq, Repr

def AlertDefinitionRow.layout : Layout AlertDefinitionRow where
  columns := [⟨"Name", "name"⟩, ⟨"Description", "description"⟩, ⟨"Enabled", "enabled"⟩,
    ⟨"Priority", "priority"⟩, ⟨"Parent", "parent"⟩, ⟨"Resource", "resource"⟩,
    ⟨"Ancestry", "ancestry"⟩, ⟨"Details URL", "detailsUrl"⟩]
  element := "alertDefinition"
  fields base row := [row.name, row.description.getD "", yesNo row.enabled,
    row.priority.displayName, row.parent.text, row.resource.name, row.resource.ancestryText,
    base.resourceUrl row.resource.id ("Alerts/Definitions/" ++ idText row.id)]

inductive ConfigurationUpdateStatus
  | inProgress | success | failure | noChange
  deriving DecidableEq, Repr

namespace ConfigurationUpdateStatus

def displayName : ConfigurationUpdateStatus → String
  | .inProgress => "In Progress"
  | .success => "Success"
  | .failure => "Failure"
  | .noChange => "No Change"

def name : ConfigurationUpdateStatus → String
  | .inProgress => "IN_PROGRESS"
  | .success => "SUCCESS"
  | .failure => "FAILURE"
  | .noChange => "NO_CHANGE"

/-- Stored data has two spellings of the statuses of two words. -/
def ofStored? : String → Option ConfigurationUpdateStatus
  | "INPROGRESS" | "IN_PROGRESS" => some .inProgress
  | "SUCCESS" => some .success
  | "FAILURE" => some .failure
  | "NOCHANGE" | "NO_CHANGE" => some .noChange
  | _ => none

end ConfigurationUpdateStatus

structure ConfigurationUpdateRow where
  version : Int32
  resource : ResourceRef
  submittedAt : Instant
  completedAt : Option Instant
  status : ConfigurationUpdateStatus
  user : Option String
  deriving DecidableEq

def ConfigurationUpdateRow.layout : Layout ConfigurationUpdateRow where
  columns := [⟨"Resource", "resource"⟩, ⟨"Ancestry", "ancestry"⟩, ⟨"Version", "version"⟩,
    ⟨"Date Submitted", "dateSubmitted"⟩, ⟨"Date Completed", "dateCompleted"⟩,
    ⟨"Status", "status"⟩, ⟨"User", "user"⟩, ⟨"Details URL", "detailsUrl"⟩]
  element := "configurationUpdate"
  fields base row := [row.resource.name, row.resource.ancestryText, idText row.version,
    row.submittedAt.text, (row.completedAt.map Instant.text).getD "", row.status.displayName,
    row.user.getD "",
    base.resourceUrl row.resource.id ("Configuration/History/" ++ idText row.version)]

structure DriftComplianceRow where
  type : TypeRef
  resource : ResourceRef
  inCompliance : Bool
  deriving DecidableEq, Repr

def DriftComplianceRow.layout : Layout DriftComplianceRow where
  columns := TypeRef.columns ++ [⟨"Name", "name"⟩, ⟨"Ancestry", "ancestry"⟩,
    ⟨"In Compliance", "inCompliance"⟩, ⟨"Details URL", "detailsUrl"⟩]
  element := "resource"
  fields base row := row.type.fields ++ [row.resource.name, row.resource.ancestryText,
    yesNo row.inCompliance, base.resourceUrl row.resource.id "Drift/Definitions"]

/-- A metric whose newest value lies outside its usual range. -/
structure SuspectMetricRow where
  scheduleId : Int32
  resource : ResourceRef
  metric : String
  min : Number.Double
  max : Number.Double
  average : Number.Double
  deriving DecidableEq, Repr

def SuspectMetricRow.layout : Layout SuspectMetricRow where
  columns := [⟨"Resource", "resource"⟩, ⟨"Ancestry", "ancestry"⟩, ⟨"Metric", "metric"⟩,
    ⟨"Min", "min"⟩, ⟨"Max", "max"⟩, ⟨"Average", "average"⟩, ⟨"Details URL", "detailsUrl"⟩]
  element := "suspectMetric"
  fields base row := [row.resource.name, row.resource.ancestryText, row.metric, row.min.text,
    row.max.text, row.average.text, base.resourceUrl row.resource.id "Monitoring/Metrics"]

/-- Where the definition that fired an alert belongs. -/
inductive AlertDefinitionContext
  | resource
  | group (id : GroupId) (autoGroup : Bool)
  | template
  deriving DecidableEq, Repr

structure AlertRow where
  id : Int32
  createdAt : Instant
  definitionName : String
  conditions : List AlertCondition
  priority : AlertPriority
  acknowledgedBy : Option String
  resource : ResourceRef
  context : AlertDefinitionContext
  deriving DecidableEq

namespace AlertRow

def status (row : AlertRow) : String :=
  match row.acknowledgedBy with
  | some user => "Ack (" ++ user ++ ")"
  | none => "No Ack"

/-- The history of the alert, on the view of what its definition belongs to. -/
def detailsUrl (base : LinkBase) (row : AlertRow) : String :=
  let history := "Alerts/History/" ++ idText row.id
  match row.context with
  | .resource => base.resourceUrl row.resource.id history
  | .group id true => base.detailUrl ("Resource/AutoGroup/" ++ id.text ++ "/" ++ history)
  | .group id false => base.detailUrl ("ResourceGroup/" ++ id.text ++ "/" ++ history)
  | .template => base.consoleUrl

def layout : Layout AlertRow where
  columns := [⟨"Creation Time", "creationTime"⟩, ⟨"Name", "name"⟩,
    ⟨"Condition Text", "conditionText"⟩, ⟨"Priority", "priority"⟩, ⟨"Status", "status"⟩,
    ⟨"Resource", "resource"⟩, ⟨"Ancestry", "ancestry"⟩, ⟨"Details URL", "detailsUrl"⟩]
  element := "alert"
  fields base row := [row.createdAt.text, row.definitionName, conditionText row.conditions,
    row.priority.displayName, row.status, row.resource.name, row.resource.ancestryText,
    row.detailsUrl base]

end AlertRow

inductive OperationStatus
  | inProgress | success | failure | canceled
  deriving DecidableEq, Repr

namespace OperationStatus

def displayName : OperationStatus → String
  | .inProgress => "In Progress"
  | .success => "Success"
  | .failure => "Failure"
  | .canceled => "Canceled"

def name : OperationStatus → String
  | .inProgress => "IN_PROGRESS"
  | .success => "SUCCESS"
  | .failure => "FAILURE"
  | .canceled => "CANCELED"

def ofName? : String → Option OperationStatus
  | "INPROGRESS" | "IN_PROGRESS" => some .inProgress
  | "SUCCESS" => some .success
  | "FAILURE" => some .failure
  | "CANCELED" => some .canceled
  | _ => none

/-- As typed or stored: in any case, with blanks around it. -/
def ofTyped? (s : String) : Option OperationStatus := ofName? (Text.asciiUpper (Text.trim s))

end OperationStatus

structure OperationRow where
  historyId : Int32
  createdAt : Instant
  operation : String
  requester : String
  status : OperationStatus
  resource : ResourceRef
  deriving DecidableEq

def OperationRow.layout : Layout OperationRow where
  columns := [⟨"Date Submitted", "dateSubmitted"⟩, ⟨"Operation", "operation"⟩,
    ⟨"Requester", "requester"⟩, ⟨"Status", "status"⟩, ⟨"Resource", "resource"⟩,
    ⟨"Ancestry", "ancestry"⟩, ⟨"Details URL", "detailsUrl"⟩]
  element := "operation"
  fields base row := [row.createdAt.text, row.operation, row.requester, row.status.displayName,
    row.resource.name, row.resource.ancestryText,
    base.resourceUrl row.resource.id ("Operations/History/" ++ idText row.historyId)]

inductive DriftCategory
  | fileAdded | fileChanged | fileRemoved
  deriving DecidableEq, Repr

namespace DriftCategory

def displayName : DriftCategory → String
  | .fileAdded => "Added"
  | .fileChanged => "Changed"
  | .fileRemoved => "Removed"

def name : DriftCategory → String
  | .fileAdded => "FILE_ADDED"
  | .fileChanged => "FILE_CHANGED"
  | .fileRemoved => "FILE_REMOVED"

def ofName? : String → Option DriftCategory
  | "FILE_ADDED" => some .fileAdded
  | "FILE_CHANGED" => some .fileChanged
  | "FILE_REMOVED" => some .fileRemoved
  | _ => none

/-- As typed or stored: in any case, with blanks around it. -/
def ofTyped? (s : String) : Option DriftCategory := ofName? (Text.asciiUpper (Text.trim s))

end DriftCategory

structure DriftRow where
  id : String
  createdAt : Instant
  definition : String
  snapshot : Int32
  category : DriftCategory
  path : String
  resource : ResourceRef
  deriving DecidableEq

def DriftRow.layout : Layout DriftRow where
  columns := [⟨"Creation Time", "creationTime"⟩, ⟨"Definition", "definition"⟩,
    ⟨"Snapshot", "snapshot"⟩, ⟨"Category", "category"⟩, ⟨"Path", "path"⟩,
    ⟨"Resource", "resource"⟩, ⟨"Ancestry", "ancestry"⟩, ⟨"Details URL", "detailsUrl"⟩]
  element := "drift"
  fields base row := [row.createdAt.text, row.definition, idText row.snapshot,
    row.category.displayName, row.path, row.resource.name, row.resource.ancestryText,
    base.resourceUrl row.resource.id ("Drift/History/" ++ row.id)]

end FleetConsole.Report
