import FleetConsole.Id
import FleetConsole.Navigation.Route

/-! Detail views: which entity a path names, on which tab, and whether it has to be loaded. -/
namespace FleetConsole.Navigation

inductive DetailEntity
  | resource (id : ResourceId)
  | group (id : GroupId)
  /-- The hidden group behind the folder of one type below a resource. -/
  | autoGroup (id : GroupId)
  /-- The hidden group behind a cluster. -/
  | autoCluster (id : GroupId)
  deriving DecidableEq, Repr

namespace DetailEntity

def rawId : DetailEntity → Int32
  | .resource id => id.val
  | .group id | .autoGroup id | .autoCluster id => id.val

def basePath : DetailEntity → String
  | .resource _ => "Resource"
  | .group _ => "ResourceGroup"
  | .autoGroup _ => "Resource/AutoGroup"
  | .autoCluster _ => "ResourceGroup/AutoCluster"

/-- Hidden groups stay out of the lists of entities viewed last. -/
def recordsView : DetailEntity → Bool
  | .resource _ | .group _ => true
  | .autoGroup _ | .autoCluster _ => false

def text (e : DetailEntity) : String := e.basePath ++ "/" ++ idText e.rawId

def commonNoun : DetailEntity → String
  | .resource _ => "resource"
  | .group _ | .autoGroup _ | .autoCluster _ => "group"

/-- The word for the entity at the beginning of a sentence. -/
def noun : DetailEntity → String
  | .resource _ => "Resource"
  | .group _ | .autoGroup _ | .autoCluster _ => "Group"

def family : DetailEntity → DetailFamily
  | .resource _ | .autoGroup _ => .resource
  | .group _ | .autoCluster _ => .resourceGroup

end DetailEntity

structure DetailTarget where
  entity : DetailEntity
  tab : Option String
  subtab : Option String
  deriving DecidableEq, Repr

/-- The path that names the target. -/
def DetailTarget.viewPath (t : DetailTarget) : String :=
  Text.joinWith "/" (t.entity.text :: (t.tab.toList ++ t.subtab.toList))

/-- What to do about a target. -/
inductive DetailAction
  /-- Fetch the entity and build its tabs anew. -/
  | reload (target : DetailTarget)
  /-- The entity is shown already, so only its tab changes. -/
  | selectTab (target : DetailTarget)
  deriving DecidableEq, Repr

namespace DetailFamily

/-- The segment before the id of a hidden group. -/
def hiddenSegment : DetailFamily → String
  | .resource => "AutoGroup"
  | .resourceGroup => "AutoCluster"

def entity (f : DetailFamily) (hidden : Bool) (id : Int32) : DetailEntity :=
  match f, hidden with
  | .resource, false => .resource ⟨id⟩
  | .resource, true => .autoGroup ⟨id⟩
  | .resourceGroup, false => .group ⟨id⟩
  | .resourceGroup, true => .autoCluster ⟨id⟩

/-- The id in a segment of a path. -/
def segmentId? (segment : String) : Option Int32 :=
  ((Number.Range.signed32.read segment).toOption).map Int32.ofInt

/-- Tab and subtab, each if there is one, from the segment after the current one on. -/
def readTabs (entity : DetailEntity) (p : ViewPath) : DetailTarget × ViewPath :=
  let p := p.advance
  match p.current? with
  | none => (⟨entity, none, none⟩, p)
  | some tab =>
    let p := p.advance
    match p.current? with
    | none => (⟨entity, some tab, none⟩, p)
    | some subtab => (⟨entity, some tab, some subtab⟩, p.advance)

/-- Reads an id segment, then the tabs. -/
def readEntity (f : DetailFamily) (hidden : Bool) (segment : String) (p : ViewPath) :
    Except Fault (Option DetailTarget) × ViewPath :=
  match segmentId? segment with
  | none => (.error (.invalid "Invalid entity id in view path"
      ("expected numeric id, got " ++ segment)), p)
  | some id =>
    let (target, p) := readTabs (f.entity hidden id) p
    (.ok (some target), p)

/-- Reads a target from the cursor on: an id, after the family's segment for hidden groups if that
comes first, and the tabs. Nothing is read when the path ends before the id. -/
def readTarget (f : DetailFamily) (p : ViewPath) :
    Except Fault (Option DetailTarget) × ViewPath :=
  match p.current? with
  | none => (.ok none, p)
  | some first =>
    if first = f.hiddenSegment then
      let p := p.advance
      match p.current? with
      | none => (.ok none, p)
      | some segment => f.readEntity true segment p
    else f.readEntity false first p

end DetailFamily

/-- Keeps track of the entity that a family's view has loaded. -/
structure DetailNavigator where
  family : DetailFamily
  loaded : Option DetailEntity
  deriving DecidableEq, Repr

namespace DetailNavigator

def ofFamily (family : DetailFamily) : DetailNavigator := ⟨family, none⟩

def markLoaded (n : DetailNavigator) (entity : DetailEntity) : DetailNavigator :=
  { n with loaded := some entity }

def clear (n : DetailNavigator) : DetailNavigator := { n with loaded := none }

/-- Only the entity that is loaded, and only without a refresh, is kept. -/
def plan (n : DetailNavigator) (target : DetailTarget) (refresh : Bool) : DetailAction :=
  if !refresh && n.loaded = some target.entity then .selectTab target else .reload target

end DetailNavigator

end FleetConsole.Navigation
