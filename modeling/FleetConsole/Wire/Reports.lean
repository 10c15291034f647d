import FleetConsole.Report.Criteria
import FleetConsole.Report.Page
import FleetConsole.Report.Row
import FleetConsole.Wire.Models

/-! Parts of reports in JSON: what is asked of them, the conditions of alerts, where alert
definitions come from, and rows that are kept as records. -/
namespace FleetConsole.Report

def AvailabilityChange.name : AvailabilityChange → String
  | .goesDisabled => "goes_disabled"
  | .goesDown => "goes_down"
  | .goesUnknown => "goes_unknown"
  | .goesUp => "goes_up"
  | .goesNotUp => "goes_not_up"

def AvailabilityChange.ofName? : String → Option AvailabilityChange
  | "goes_disabled" => some .goesDisabled
  | "goes_down" => some .goesDown
  | "goes_unknown" => some .goesUnknown
  | "goes_up" => some .goesUp
  | "goes_not_up" => some .goesNotUp
  | _ => none

def DurationState.name : DurationState → String
  | .down => "down"
  | .notUp => "not_up"

def DurationState.ofName? : String → Option DurationState
  | "down" => some .down
  | "not_up" => some .notUp
  | _ => none

def RangeComparator.name : RangeComparator → String
  | .insideExclusive => "inside_exclusive"
  | .outsideExclusive => "outside_exclusive"
  | .insideInclusive => "inside_inclusive"
  | .outsideInclusive => "outside_inclusive"

def RangeComparator.ofName? : String → Option RangeComparator
  | "inside_exclusive" => some .insideExclusive
  | "outside_exclusive" => some .outsideExclusive
  | "inside_inclusive" => some .insideInclusive
  | "outside_inclusive" => some .outsideInclusive
  | _ => none

def ChangeDirection.name : ChangeDirection → String
  | .grows => "grows"
  | .shrinks => "shrinks"
  | .changes => "changes"

def ChangeDirection.ofName? : String → Option ChangeDirection
  | "grows" => some .grows
  | "shrinks" => some .shrinks
  | "changes" => some .changes
  | _ => none

namespace AlertCondition

/-- The members of a condition, its kind in `category`. -/
def members : AlertCondition → List (String × Json)
  | .availability kind =>
    [("category", .text "availability"), ("change", .text kind.name)]
  | .availabilityDuration state seconds =>
    [("category", .text "availability_duration"), ("state", .text state.name),
      ("seconds", .integer seconds.toInt)]
  | .threshold metric comparator value =>
    [("category", .text "threshold"), ("metric", .text metric), ("comparator", .text comparator),
      ("threshold", .text value)]
  | .callTimeThreshold metric statistic comparator value destination =>
    [("category", .text "call_time_threshold"), ("metric", optionalText metric),
      ("statistic", .text statistic), ("comparator", .text comparator),
      ("threshold", .text value), ("destination", optionalText destination)]
  | .baseline metric comparator percentage usual =>
    [("category", .text "baseline"), ("metric", .text metric), ("comparator", .text comparator),
      ("percentage", .text percentage), ("baseline", .text usual)]
  | .change metric => [("category", .text "change"), ("metric", .text metric)]
  | .callTimeChange metric statistic direction percentage destination =>
    [("category", .text "call_time_change"), ("metric", optionalText metric),
      ("statistic", .text statistic), ("direction", .text direction.name),
      ("percentage", .text percentage), ("destination", optionalText destination)]
  | .trait name pattern =>
    [("category", .text "trait"), ("name", .text name), ("pattern", optionalText pattern)]
  | .operation name status =>
    [("category", .text "operation"), ("name", .text name), ("status", .text status)]
  | .resourceConfiguration => [("category", .text "resource_configuration")]
  | .event severity sourcePattern =>
    [("category", .text "event"), ("severity", .text severity),
      ("source_pattern", optionalText sourcePattern)]
  | .drift definitionPattern pathPattern =>
    [("category", .text "drift"), ("definition_pattern", optionalText definitionPattern),
      ("path_pattern", optionalText pathPattern)]
  | .range metric comparator low high =>
    [("category", .text "range"), ("metric", .text metric), ("comparator", .text comparator.name),
      ("low", .text low), ("high", .text high)]

def toJson (c : AlertCondition) : Json := .object c.members

private def textField (name : String) : Json.Reader String := .required name Json.toText?

private def optionalField (name : String) : Json.Reader (Option String) :=
  .optional name Json.toText?

private def nameField {α : Type} (name : String) (ofName : String → Option α) : Json.Reader α :=
  .required name (Json.toInnerName? ofName)

/-- The reader for the fields of one kind. -/
def fieldReader? : String → Option (Json.Reader AlertCondition)
  | "availability" => some do
    return .availability (← nameField "change" AvailabilityChange.ofName?)
  | "availability_duration" => some do
    return .availabilityDuration (← nameField "state" DurationState.ofName?)
      (← .required "seconds" Json.toInt64?)
  | "threshold" => some do
    return .threshold (← textField "metric") (← textField "comparator") (← textField "threshold")
  | "call_time_threshold" => some do
    return .callTimeThreshold (← optionalField "metric") (← textField "statistic")
      (← textField "comparator") (← textField "threshold") (← optionalField "destination")
  | "baseline" => some do
    return .baseline (← textField "metric") (← textField "comparator") (← textField "percentage")
      (← textField "baseline")
  | "change" => some do return .change (← textField "metric")
  | "call_time_change" => some do
    return .callTimeChange (← optionalField "metric") (← textField "statistic")
      (← nameField "direction" ChangeDirection.ofName?) (← textField "percentage")
      (← optionalField "destination")
  | "trait" => some do return .trait (← textField "name") (← optionalField "pattern")
  | "operation" => some do return .operation (← textField "name") (← textField "status")
  | "event" => some do return .event (← textField "severity") (← optionalField "source_pattern")
  | "drift" => some do
    return .drift (← optionalField "definition_pattern") (← optionalField "path_pattern")
  | "range" => some do
    return .range (← textField "metric") (← nameField "comparator" RangeComparator.ofName?)
      (← textField "low") (← textField "high")
  | _ => none

def ofJson? (j : Json) : Option AlertCondition := do
  let (kind, fields) ← j.untag? "category"
  if kind = "resource_configuration" then fields.toBare? .resourceConfiguration
  else (← fieldReader? kind).run fields

end AlertCondition

def AlertPriority.toJson (p : AlertPriority) : Json := .text p.name

def AlertPriority.ofJson? : Json → Option AlertPriority := Json.toName? ofName?

namespace ResourceRef

def toJson (r : ResourceRef) : Json :=
  .object [("id", r.id.toJson), ("name", .text r.name), ("ancestry", optionalText r.ancestry)]

def ofJson? : Json → Option ResourceRef := Json.Reader.run do
  return {
    id := ← .required "id" ResourceId.ofJson?
    name := ← .required "name" Json.toText?
    ancestry := ← .optional "ancestry" Json.toText? }

end ResourceRef

namespace AlertDefinitionParent

/-- The kind of the parent in `kind`, and its id beside it. -/
def toJson : AlertDefinitionParent → Json
  | .none => .object [("kind", .text "none")]
  | .template id => .object [("kind", .text "template"), ("id", idJson id)]
  | .group id => .object [("kind", .text "group"), ("id", id.toJson)]

/-- Reads the id, given the kind; the kind `none` has no id, or a null one. -/
def ofKind? (kind : String) (id : Option Json) : Option AlertDefinitionParent :=
  match kind, id with
  | "none", .none | "none", some .null => some .none
  | "template", some id => id.toInt32?.map .template
  | "group", some id => (GroupId.ofJson? id).map .group
  | _, _ => Option.none

/-- Only where the kind stands under its name may it be an object around a null. -/
def ofJson? : Json → Option AlertDefinitionParent
  | .object members => do
    let kind ← members.find? (·.1 = "kind")
    ofKind? (← kind.2.toName? some) ((members.find? (·.1 = "id")).map (·.2))
  | .list [.text kind, id] => ofKind? kind (some id)
  | _ => Option.none

end AlertDefinitionParent

namespace AlertDefinitionContext

def toJson : AlertDefinitionContext → Json
  | .resource => .object [("kind", .text "resource")]
  | .group id autoGroup =>
    .object [("kind", .text "group"), ("group_id", id.toJson), ("auto_group", .bool autoGroup)]
  | .template => .object [("kind", .text "template")]

def ofJson? (j : Json) : Option AlertDefinitionContext := do
  match ← j.untag? "kind" with
  | ("resource", fields) => fields.toBare? .resource
  | ("template", fields) => fields.toBare? .template
  | ("group", fields) =>
    Json.Reader.run (do
      return .group (← .required "group_id" GroupId.ofJson?)
        (← .required "auto_group" Json.toBool?)) fields
  | _ => none

end AlertDefinitionContext

namespace AlertDefinitionRow

def toJson (row : AlertDefinitionRow) : Json :=
  .object [("id", idJson row.id), ("name", .text row.name),
    ("description", optionalText row.description), ("enabled", .bool row.enabled),
    ("priority", row.priority.toJson), ("parent", row.parent.toJson),
    ("resource", row.resource.toJson)]

def ofJson? : Json → Option AlertDefinitionRow := Json.Reader.run do
  return {
    id := ← .required "id" Json.toInt32?
    name := ← .required "name" Json.toText?
    description := ← .optional "description" Json.toText?
    enabled := ← .required "enabled" Json.toBool?
    priority := ← .required "priority" AlertPriority.ofJson?
    parent := ← .required "parent" AlertDefinitionParent.ofJson?
    resource := ← .required "resource" ResourceRef.ofJson? }

end AlertDefinitionRow

namespace TypeCountRow

def toJson (row : TypeCountRow) : Json :=
  .object [("typeId", row.type.typeId.toJson), ("typeName", .text row.type.typeName),
    ("plugin", .text row.type.plugin), ("category", row.type.category.toJson),
    ("version", optionalText row.type.version), ("count", .ofNat row.count)]

def ofJson? : Json → Option TypeCountRow := Json.Reader.run do
  let typeId ← .required "typeId" TypeId.ofJson?
  let typeName ← .required "typeName" Json.toText?
  let plugin ← .required "plugin" Json.toText?
  let category ← .required "category" Category.ofJson?
  let version ← .optional "version" Json.toText?
  let count ← .required "count" (Json.toInteger? .unsigned64)
  return ⟨⟨typeId, typeName, plugin, category, version⟩, count.toNat⟩

end TypeCountRow

namespace PageControl

def toJson (c : PageControl) : Json :=
  .object [("pageNumber", .ofNat c.number), ("pageSize", .ofNat c.size)]

def ofJson? : Json → Option PageControl := Json.Reader.run do
  return {
    number := ← .required "pageNumber" Json.toCount?
    size := ← .required "pageSize" Json.toCount? }

end PageControl

def TimeWindow.members (w : TimeWindow) : List (String × Json) :=
  [("start", .ofOption (fun t => .integer t.millis) w.start),
    ("end", .ofOption (fun t => .integer t.millis) w.stop),
    ("startText", optionalText (w.start.map Instant.text)),
    ("endText", optionalText (w.stop.map Instant.text))]

private def timeOfJson? : Json → Option Int := Json.toInteger? .signed64

/-- Reads parameters; the member with the names of categories is called `categories`. -/
def DriftParameters.ofJson? (categories : String) (j : Json) : Option DriftParameters := do
  return {
    categoryId := ← j.maybe? categories Json.toText?
    definition := ← j.maybe? "definition" Json.toText?
    snapshot := ← j.maybe? "snapshot" Json.toText?
    path := ← j.maybe? "path" Json.toText?
    startTime := ← j.maybe? "startTime" timeOfJson?
    endTime := ← j.maybe? "endTime" timeOfJson? }

def ReportQuery.ofJson? (j : Json) : Option ReportQuery := do
  return {
    details := ← j.fieldOr? "details" Json.toBool? false
    resourceTypeId := ← j.maybe? "resourceTypeId" Json.toInt32?
    version := ← j.maybe? "version" Json.toText?
    alertPriority := ← j.maybe? "alertPriority" Json.toText?
    operationRequestStatus := ← j.maybe? "operationRequestStatus" Json.toText?
    drift := ← DriftParameters.ofJson? "categoryId" j }

end FleetConsole.Report
