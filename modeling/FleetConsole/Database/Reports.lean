import FleetConsole.Database.Entities
import FleetConsole.Report.Stream

/-! The pages of reports out of a database. Filters go into the statement; a page of rows becomes a
page of the report only if every word in it is known. The number of all rows is not asked for. -/
namespace FleetConsole.Database

open Column (required nullable)
open Report

/-- The last two parameters of every report: how many rows, and how many to pass over. -/
def pageParams (c : PageControl) : List Param :=
  [.integer c.size, .integer (min (c.offset : Int) Number.Range.signed64.greatest)]

def windowParams (w : TimeWindow) : List Param := [.ofOption .time w.start, .ofOption .time w.stop]

def typeParams (f : TypeFilter) : List Param :=
  [.ofOption (fun id => .int32 id.val) f.typeId, .ofOption .text f.version]

def typeRefColumns : List Column :=
  [required "type_id" .int32, required "type_name" .text, required "plugin" .text,
    required "category" .text, nullable "version" .text]

def resourceRefColumns : List Column :=
  [required "resource_id" .int32, required "resource_name" .text,
    nullable "resource_ancestry" .text]

def typeRefSelect : String :=
  "SELECT t.id AS type_id, t.name AS type_name, t.plugin, t.category, r.version,"

def resourceRefSelect : String :=
  "r.id AS resource_id, r.name AS resource_name, r.ancestry AS resource_ancestry"

def typeJoin : String :=
  clauses ["FROM inventory.resources r", "JOIN inventory.resource_types t ON t.id = r.type_id"]

def typeRef (id : Int32) (name plugin category : String) (version : Option String) :
    Except Fault TypeRef := do
  let category ← readWord "category" Category.ofName? category
  return ⟨⟨id⟩, name, plugin, category, version⟩

/-- A statement for the rows of a report, and how a stored row of its answer is read. -/
structure PageQuery (α : Type) where
  columns : List Column
  statement : Statement
  read : Row columns → Except Fault α
  /-- What users are told when the statement fails. -/
  summary : String

/-- What is stored for a count of resources. -/
def typeCountQuery (c : PageControl) : PageQuery TypeCountRow where
  columns := typeRefColumns ++ [required "count" .int64]
  statement :=
    { sql := clauses [typeRefSelect, "COUNT(*) AS count", typeJoin,
        "GROUP BY t.id, t.name, t.plugin, t.category, r.version",
        "ORDER BY lower(t.name), r.version NULLS FIRST", "LIMIT $1 OFFSET $2"]
      params := pageParams c }
  read
    | (id, name, plugin, category, version, count, ()) => do
      return ⟨← typeRef id name plugin category version, count.toInt.toNat⟩
  summary := "Failed to query inventory summary"

def detailQuery (f : TypeFilter) (c : PageControl) : PageQuery InventoryDetailRow where
  columns := typeRefColumns ++ resourceRefColumns ++
    [nullable "description" .text, required "availability" .text]
  statement :=
    { sql := clauses [typeRefSelect, resourceRefSelect ++ ",", "r.description, r.availability",
        typeJoin, "WHERE ($1::int IS NULL OR t.id = $1)",
        "AND ($2::text IS NULL OR r.version = $2)", "ORDER BY t.name, r.name, r.id",
        "LIMIT $3 OFFSET $4"]
      params := typeParams f ++ pageParams c }
  read
    | (id, name, plugin, category, version, resourceId, resourceName, ancestry, description,
        availability, ()) => do
      let type ← typeRef id name plugin category version
      let availability ← readWord "availability" Availability.ofName? availability
      return ⟨type, ⟨⟨resourceId⟩, resourceName, ancestry⟩, description, availability⟩
  summary := "Failed to query inventory details"

/-- A definition that comes from a group counts as the group's, even if there is a template. -/
def definitionParent (groupId templateId : Option Int32) : AlertDefinitionParent :=
  match groupId, templateId with
  | some id, _ => .group ⟨id⟩
  | none, some id => .template id
  | none, none => .none

def alertDefinitionQuery (c : PageControl) : PageQuery AlertDefinitionRow where
  columns := [required "id" .int32, required "name" .text, nullable "description" .text,
    required "enabled" .flag, required "priority" .text, nullable "template_id" .int32,
    nullable "group_id" .int32] ++ resourceRefColumns
  statement :=
    { sql := clauses ["SELECT d.id, d.name, d.description, d.enabled, d.priority, d.template_id,",
        "d.group_id,", resourceRefSelect, "FROM inventory.alert_definitions d",
        "JOIN inventory.resources r ON r.id = d.resource_id", "ORDER BY d.name, d.id",
        "LIMIT $1 OFFSET $2"]
      params := pageParams c }
  read
    | (id, name, description, enabled, priority, templateId, groupId, resourceId, resourceName,
        ancestry, ()) => do
      let priority ← readWord "priority" AlertPriority.ofTyped? priority
      return ⟨id, name, description, enabled, priority, definitionParent groupId templateId,
        ⟨⟨resourceId⟩, resourceName, ancestry⟩⟩
  summary := "Failed to query alert definitions"

def configurationQuery (c : PageControl) : PageQuery ConfigurationUpdateRow where
  columns := [required "version" .int32, required "submitted_at" .time,
    nullable "completed_at" .time, required "status" .text, nullable "username" .text] ++
      resourceRefColumns
  statement :=
    { sql := clauses ["SELECT u.version, u.submitted_at, u.completed_at, u.status, u.username,",
        resourceRefSelect, "FROM inventory.configuration_updates u",
        "JOIN inventory.resources r ON r.id = u.resource_id",
        "ORDER BY u.submitted_at DESC, r.id, u.version", "LIMIT $1 OFFSET $2"]
      params := pageParams c }
  read
    | (version, submittedAt, completedAt, status, user, resourceId, resourceName, ancestry, ()) =>
      do
        let status ← readWord "configuration status" ConfigurationUpdateStatus.ofStored? status
        return ⟨version, ⟨⟨resourceId⟩, resourceName, ancestry⟩, submittedAt, completedAt, status,
          user⟩
  summary := "Failed to query configuration history"

def complianceQuery (f : TypeFilter) (c : PageControl) : PageQuery DriftComplianceRow where
  columns := typeRefColumns ++ resourceRefColumns ++ [required "drift_compliant" .flag]
  statement :=
    { sql := clauses [typeRefSelect, resourceRefSelect ++ ",", "r.drift_compliant", typeJoin,
        "WHERE r.drift_compliant IS NOT NULL", "AND ($1::int IS NULL OR t.id = $1)",
        "AND ($2::text IS NULL OR r.version = $2)", "ORDER BY t.name, r.name, r.id",
        "LIMIT $3 OFFSET $4"]
      params := typeParams f ++ pageParams c }
  read
    | (id, name, plugin, category, version, resourceId, resourceName, ancestry, compliant, ()) => do
      let type ← typeRef id name plugin category version
      return ⟨type, ⟨⟨resourceId⟩, resourceName, ancestry⟩, compliant⟩
  summary := "Failed to query drift compliance"

def suspectMetricQuery (c : PageControl) : PageQuery SuspectMetricRow where
  columns := [required "schedule_id" .int32, required "metric" .text,
    required "min_value" .double, required "max_value" .double, required "avg_value" .double] ++
      resourceRefColumns
  statement :=
    { sql := clauses ["SELECT m.schedule_id, m.metric, m.min_value, m.max_value, m.avg_value,",
        resourceRefSelect, "FROM inventory.suspect_metrics m",
        "JOIN inventory.resources r ON r.id = m.resource_id",
        "ORDER BY r.name, m.metric, m.schedule_id", "LIMIT $1 OFFSET $2"]
      params := pageParams c }
  read
    | (scheduleId, metric, min, max, average, resourceId, resourceName, ancestry, ()) =>
      .ok ⟨scheduleId, ⟨⟨resourceId⟩, resourceName, ancestry⟩, metric, min, max, average⟩
  summary := "Failed to query suspect metrics"

/-- What an alert belongs to: the group of its definition, or else its resource. -/
def alertContext (groupId : Option Int32) (autoGroup : Option Bool) : AlertDefinitionContext :=
  match groupId with
  | some id => .group ⟨id⟩ (autoGroup.getD false)
  | none => .resource

def alertQuery (f : AlertFilter) (c : PageControl) : PageQuery AlertRow where
  columns := [required "id" .int32, required "created_at" .time, required "definition_name" .text,
    required "conditions" .conditions, required "priority" .text,
    nullable "acknowledged_by" .text, nullable "group_id" .int32, nullable "auto_group" .flag] ++
      resourceRefColumns
  statement :=
    { sql := clauses ["SELECT a.id, a.created_at, d.name AS definition_name, a.conditions,",
        "d.priority, a.acknowledged_by, d.group_id,",
        "(g.auto_group_parent_id IS NOT NULL) AS auto_group,", resourceRefSelect,
        "FROM inventory.alerts a",
        "JOIN inventory.alert_definitions d ON d.id = a.definition_id",
        "JOIN inventory.resources r ON r.id = d.resource_id",
        "LEFT JOIN inventory.groups g ON g.id = d.group_id",
        "WHERE (cardinality($1::text[]) = 0 OR d.priority = ANY($1))",
        "AND ($2::timestamptz IS NULL OR a.created_at >= $2)",
        "AND ($3::timestamptz IS NULL OR a.created_at <= $3)",
        "ORDER BY a.created_at DESC, a.id DESC", "LIMIT $4 OFFSET $5"]
      params := .texts (f.priorities.map AlertPriority.name) :: windowParams f.window ++
        pageParams c }
  read
    | (id, createdAt, definitionName, conditions, priority, acknowledgedBy, groupId, autoGroup,
        resourceId, resourceName, ancestry, ()) => do
      let priority ← readWord "priority" AlertPriority.ofTyped? priority
      return ⟨id, createdAt, definitionName, conditions, priority, acknowledgedBy,
        ⟨⟨resourceId⟩, resourceName, ancestry⟩, alertContext groupId autoGroup⟩
  summary := "Failed to query recent alerts"

def operationQuery (f : OperationFilter) (c : PageControl) : PageQuery OperationRow where
  columns := [required "history_id" .int32, required "created_at" .time,
    required "operation" .text, required "requester" .text, required "status" .text] ++
      resourceRefColumns
  statement :=
    { sql := clauses ["SELECT o.history_id, o.created_at, o.operation, o.requester, o.status,",
        resourceRefSelect, "FROM inventory.operations o",
        "JOIN inventory.resources r ON r.id = o.resource_id",
        "WHERE (cardinality($1::text[]) = 0 OR o.status = ANY($1))",
        "AND ($2::timestamptz IS NULL OR o.created_at >= $2)",
        "AND ($3::timestamptz IS NULL OR o.created_at <= $3)",
        "ORDER BY o.created_at DESC, o.history_id DESC", "LIMIT $4 OFFSET $5"]
      params := .texts (f.statuses.map OperationStatus.name) :: windowParams f.window ++
        pageParams c }
  read
    | (historyId, createdAt, operation, requester, status, resourceId, resourceName, ancestry,
        ()) => do
      let status ← readWord "operation status" OperationStatus.ofTyped? status
      return ⟨historyId, createdAt, operation, requester, status,
        ⟨⟨resourceId⟩, resourceName, ancestry⟩⟩
  summary := "Failed to query recent operations"

def driftQuery (f : DriftFilter) (c : PageControl) : PageQuery DriftRow where
  columns := [required "id" .text, required "created_at" .time, required "definition" .text,
    required "snapshot" .int32, required "category" .text, required "path" .text] ++
      resourceRefColumns
  statement :=
    { sql := clauses ["SELECT d.id, d.created_at, d.definition, d.snapshot, d.category, d.path,",
        resourceRefSelect, "FROM inventory.drift d",
        "JOIN inventory.resources r ON r.id = d.resource_id",
        "WHERE (cardinality($1::text[]) = 0 OR d.category = ANY($1))",
        "AND ($2::text IS NULL OR d.definition ILIKE '%' || $2 || '%')",
        "AND ($3::int IS NULL OR d.snapshot = $3)",
        "AND ($4::text IS NULL OR d.path ILIKE '%' || $4 || '%')",
        "AND ($5::timestamptz IS NULL OR d.created_at >= $5)",
        "AND ($6::timestamptz IS NULL OR d.created_at <= $6)",
        "ORDER BY d.created_at DESC, d.id", "LIMIT $7 OFFSET $8"]
      params := [.texts (f.categories.map DriftCategory.name), .ofOption .text f.definition,
        .ofOption .int32 f.snapshot, .ofOption .text f.path] ++ windowParams f.window ++
          pageParams c }
  read
    | (id, createdAt, definition, snapshot, category, path, resourceId, resourceName, ancestry,
        ()) => do
      let category ← readWord "drift category" DriftCategory.ofTyped? category
      return ⟨id, createdAt, definition, snapshot, category, path,
        ⟨⟨resourceId⟩, resourceName, ancestry⟩⟩
  summary := "Failed to query recent drift"

/-- The statement that answers a page of a report. -/
def pageQuery : (c : Criteria) → PageControl → PageQuery c.Row
  | .inventorySummary => typeCountQuery
  | .inventoryDetails f => detailQuery f
  | .alertDefinitions => alertDefinitionQuery
  | .configurationHistory => configurationQuery
  | .driftCompliance f => complianceQuery f
  | .suspectMetrics => suspectMetricQuery
  | .recentAlerts f => alertQuery f
  | .recentOperations f => operationQuery f
  | .recentDrift f => driftQuery f

variable {σ : Type} (server : Server σ)

/-- A page of rows: all of them, in the order of the answer, or a fault. -/
def PageQuery.fetch {α : Type} (q : PageQuery α) (c : PageControl) : Talk σ Fault (Page α) := do
  let rows ← reporting q.summary (server.fetchAll q.columns q.statement)
  let items ← settled (rows.mapM q.read)
  return ⟨items, c, none⟩

/-- The database as the source of reports. -/
def reportSource : Source σ := fun c page => (pageQuery c page).fetch server page

end FleetConsole.Database
