import FleetConsole.Http.Request
import FleetConsole.Http.Response
import FleetConsole.Wire.Trees

/-! The routes of the console. A report is at its name below `/reports`, and for older clients at
the root; trees are below `/tree`. -/
namespace FleetConsole.Http

/-- What the routes need; `σ` is whatever lies behind reports and trees. -/
structure Service (σ : Type) where
  reports : Report.Source σ
  resourceTree : Option ResourceId → List Tree.NodeId → σ → Except Fault Tree.Build × σ
  groupTree : GroupId → σ → Except Fault (List Tree.Node) × σ
  /-- Stands for scheme and host in links, in place of what the request says. -/
  publicUrl : Option String
  options : Report.StreamOptions

/-- A route with the segment it leaves open. -/
inductive Route
  | report (name : List Char)
  | resourceTree
  | groupTree (id : List Char)
  deriving DecidableEq, Repr

/-- The route of a path. An open segment is not empty. -/
def Route.ofSegments? (segments : List (List Char)) : Option Route :=
  if segments = ["tree".toList, "resources".toList] then some .resourceTree
  else
    match segments with
    | [] | [[]] | [_, []] => none
    | [name] => some (.report name)
    | [folder, name] =>
      if folder = "reports".toList then some (.report name) else none
    | [tree, groups, id] =>
      if tree = "tree".toList ∧ groups = "groups".toList ∧ id ≠ [] then some (.groupTree id)
      else none
    | _ => none

/-- A version without the blanks around it, if anything is left. -/
def wantedVersion (value : Option String) : Option String :=
  (value.map Text.trim).filter (· ≠ "")

/-- The parameters of a report, if they can be read. -/
def reportQuery? (pairs : List (String × String)) : Option Report.ReportQuery := do
  return {
    details := ← Parameters.flag? pairs "details"
    resourceTypeId := (← Parameters.number? .signed32 pairs "resourceTypeId").map Int32.ofInt
    version := wantedVersion (← Parameters.once? pairs "version")
    alertPriority := ← Parameters.once? pairs "alertPriority"
    operationRequestStatus := ← Parameters.once? pairs "operationRequestStatus"
    drift := {
      categoryId := ← Parameters.once? pairs "categoryId"
      definition := ← Parameters.once? pairs "definition"
      snapshot := ← Parameters.once? pairs "snapshot"
      path := ← Parameters.once? pairs "path"
      startTime := ← Parameters.number? .signed64 pairs "startTime"
      endTime := ← Parameters.number? .signed64 pairs "endTime" } }

/-- The header that says which forms of a report a client accepts. -/
def acceptHeader (r : Request) : Except Fault (Option String) :=
  match r.header? "accept" with
  | none => .ok none
  | some value =>
    if isPlainHeader value then .ok (some value)
    else .error (.invalid "Accept header is not valid text" "failed to convert header to a str")

/-- The base of links: the public address, or else the host that the request names. -/
def linkBase (publicUrl : Option String) (r : Request) : Report.LinkBase :=
  match publicUrl with
  | some url => .ofUrl url
  | none =>
    let host := ((r.header? "host").filter isPlainHeader).getD "localhost"
    let forwarded := (r.header? "x-forwarded-proto").filter isPlainHeader
    .ofHost (forwarded.any fun proto => Text.asciiLower proto = "https") host

namespace Service

variable {σ : Type}

/-- Runs the report of a name. Of several faults the name's comes first, then the accepted forms',
then the filters'. -/
def openReport (service : Service σ) (now : Instant) (r : Request) (name : String)
    (query : Report.ReportQuery) (s : σ) : Except Fault (Report.ReportFormat × Report.Output) × σ :=
  let prepared : Except Fault (Report.ReportFormat × Report.Criteria) := do
    let kind ← Report.ReportKind.named name
    let accept ← acceptHeader r
    let format ← Report.ReportFormat.negotiate accept kind
    let criteria ← Report.Criteria.ofQuery kind query now
    return (format, criteria)
  match prepared with
  | .error e => (.error e, s)
  | .ok (format, criteria) =>
    let (answer, s) := Report.startReport service.reports criteria format
      (linkBase service.publicUrl r) service.options s
    (answer.map (format, ·), s)

def answerReport (service : Service σ) (now : Instant) (r : Request) (name : List Char) (s : σ) :
    Response × σ :=
  match decodeSegment name, reportQuery? r.query with
  | some name, some query =>
    match service.openReport now r name query s with
    | (.error e, s) => (.ofFault e, s)
    | (.ok (format, output), s) => (.ok format.contentType (.report output), s)
  | _, _ => (.rejected, s)

/-- The ids of nodes that a page says it shows. -/
def renderedIds (raw : Option String) : List Tree.NodeId :=
  (Report.listPieces (raw.getD "")).map Tree.NodeId.mk

def answerResourceTree (service : Service σ) (r : Request) (s : σ) : Response × σ :=
  match Parameters.number? .signed32 r.query "parentId", Parameters.once? r.query "rendered" with
  | some parent, some rendered =>
    match service.resourceTree (parent.map fun n => ⟨Int32.ofInt n⟩) (renderedIds rendered) s with
    | (.error e, s) => (.ofFault e, s)
    | (.ok build, s) => (.ofJson build.toJson, s)
  | _, _ => (.rejected, s)

def answerGroupTree (service : Service σ) (id : List Char) (s : σ) : Response × σ :=
  match (decodeSegment id).bind fun raw => (Number.Range.signed32.read raw).toOption with
  | none => (.rejected, s)
  | some id =>
    match service.groupTree ⟨Int32.ofInt id⟩ s with
    | (.error e, s) => (.ofFault e, s)
    | (.ok nodes, s) => (.ofJson (.ofList Tree.Node.toJson nodes), s)

def answerRoute (service : Service σ) (now : Instant) (r : Request) (route : Route) (s : σ) :
    Response × σ :=
  match route with
  | .report name => service.answerReport now r name s
  | .resourceTree => service.answerResourceTree r s
  | .groupTree id => service.answerGroupTree id s

/-- Answers a request. Every route can be asked for its content or for the headers alone. -/
def answer (service : Service σ) (now : Instant) (r : Request) (s : σ) : Response × σ :=
  match Route.ofSegments? r.target.segments with
  | none => (.notFound, s)
  | some route =>
    if r.method = "GET" then service.answerRoute now r route s
    else if r.method = "HEAD" then
      let (response, s) := service.answerRoute now r route s
      (response.withoutBody, s)
    else (.methodNotAllowed, s)

end Service

end FleetConsole.Http
