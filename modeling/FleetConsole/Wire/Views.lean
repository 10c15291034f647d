import FleetConsole.Navigation.Controller
import FleetConsole.Wire.Models

/-! What the console shows, in JSON. -/
namespace FleetConsole

def Permission.toJson (p : Permission) : Json := .text p.name

def Permission.ofJson? : Json → Option Permission := Json.toName? ofName?

/-- A message without a detail leaves the member out. -/
def Message.toJson (m : Message) : Json :=
  .object ([("severity", .text m.severity.name), ("concise", .text m.concise)] ++
    Json.memberIfSome "detail" .text m.detail)

def Severity.ofJson? (j : Json) : Option Severity := j.toText?.bind ofName?

def Message.ofJson? (j : Json) : Option Message := do
  return ⟨← j.field? "severity" Severity.ofJson?, ← j.field? "concise" Json.toText?,
    ← j.maybe? "detail" Json.toText?⟩

namespace Navigation

def NavigationRequest.ofJson? (j : Json) : Option NavigationRequest := do
  return ⟨← j.field? "path" Json.toText?, ← j.fieldOr? "refresh" Json.toBool? false⟩

def DetailFamily.ofJson? : Json → Option DetailFamily
  | .text "Resource" => some .resource
  | .text "ResourceGroup" => some .resourceGroup
  | _ => none

def ViewPath.toJson (p : ViewPath) : Json :=
  .object [("segments", .ofList .text p.segments), ("index", .ofNat p.index),
    ("refresh", .bool p.refresh)]

/-- The path as seen from its current segment. -/
def ViewPath.cursorMembers (p : ViewPath) : List (String × Json) :=
  [("current", optionalText p.current?), ("peek", optionalText p.peek?),
    ("remaining", .ofList .text p.remaining), ("pathToCurrent", .text p.pathToCurrent),
    ("isEnd", .bool p.isEnd), ("isRefresh", .bool p.refresh)]

/-- Routes without a detail of their own leave the member out. -/
def Route.toJson (r : Route) : Json :=
  let detail : List (String × Json) := match r with
    | .administration page => [("detail", .ofOption (fun p => .text p.name) page)]
    | .unknown path => [("detail", .text path)]
    | _ => []
  .object (("view", .text r.viewName) :: detail)

def DetailEntity.typeName : DetailEntity → String
  | .resource _ => "resource"
  | .group _ => "group"
  | .autoGroup _ => "auto_group"
  | .autoCluster _ => "auto_cluster"

def DetailEntity.toJson (e : DetailEntity) : Json :=
  .object [("type", .text e.typeName), ("id", idJson e.rawId)]

/-- An entity with everything that is known from its path alone. -/
def DetailEntity.described (e : DetailEntity) : Json :=
  .object [("entity", e.toJson), ("text", .text e.text), ("rawId", idJson e.rawId),
    ("recorded", .bool e.recordsView)]

def DetailTarget.toJson (t : DetailTarget) : Json :=
  .object [("entity", t.entity.toJson), ("tab", optionalText t.tab),
    ("subtab", optionalText t.subtab)]

def DetailAction.toJson : DetailAction → Json
  | .reload target => .object [("action", .text "reload"), ("target", target.toJson)]
  | .selectTab target => .object [("action", .text "select_tab"), ("target", target.toJson)]

def LoadedEntity.toJson : LoadedEntity → Json
  | .resource r => .object [("type", .text "resource"), ("value", r.toJson)]
  | .group g => .object [("type", .text "group"), ("value", g.toJson)]

def DetailView.toJson (v : DetailView) : Json :=
  .object [("target", v.target.toJson), ("entity", v.entity.toJson),
    ("resourceType", .ofOption ResourceType.toJson v.resourceType)]

/-- What came of showing a detail view, its kind as the name of the member. -/
def DetailOutcome.asMember : DetailOutcome → String × Json
  | .landing family => ("landing", .text family.name)
  | .loaded view => ("loaded", view.toJson)
  | .tabSelected view => ("tabSelected", view.toJson)
  | .redirect path => ("redirect", .text path)

def ViewState.toJson (s : ViewState) : Json :=
  .object [("generation", .ofNat s.generation), ("path", .text s.path), ("title", .text s.title),
    ("route", .ofOption Route.toJson s.route), ("detail", .ofOption DetailView.toJson s.detail),
    ("reloaded", .bool s.reloaded), ("error", optionalText s.error)]

end Navigation

end FleetConsole
