import FleetConsole.Group
import FleetConsole.Message
import FleetConsole.Navigation.Detail

/-! From a requested path to the view that is shown. Entities come from a source that may answer
anything and change with every call; the console's own state is what its detail views hold and the
messages posted to the user. -/
namespace FleetConsole.Navigation

/-- Where entities are looked up and visits recorded; `σ` is whatever lies behind it. -/
structure EntitySource (σ : Type) where
  resource : ResourceId → σ → Except Fault (Option Resource) × σ
  group : GroupId → GroupVisibility → σ → Except Fault (Option ResourceGroup) × σ
  resourceType : TypeId → σ → Except Fault (Option ResourceType) × σ
  addRecentResource : ResourceId → σ → Except Fault Unit × σ
  addRecentGroup : GroupId → σ → Except Fault Unit × σ

inductive LoadedEntity
  | resource (r : Resource)
  | group (g : ResourceGroup)
  deriving DecidableEq, Repr

def LoadedEntity.typeId? : LoadedEntity → Option TypeId
  | .resource r => some r.typeId
  | .group g => g.typeId

/-- A loaded entity on one of its tabs. -/
structure DetailView where
  target : DetailTarget
  entity : LoadedEntity
  resourceType : Option ResourceType
  deriving DecidableEq, Repr

inductive DetailOutcome
  /-- The path ended before an id. -/
  | landing (family : DetailFamily)
  | loaded (view : DetailView)
  | tabSelected (view : DetailView)
  | redirect (path : String)
  deriving DecidableEq, Repr

/-- What the detail views hold. -/
structure Details where
  resources : DetailNavigator
  groups : DetailNavigator
  current : Option DetailView
  deriving DecidableEq, Repr

namespace Details

def empty : Details := ⟨.ofFamily .resource, .ofFamily .resourceGroup, none⟩

def navigator (d : Details) : DetailFamily → DetailNavigator
  | .resource => d.resources
  | .resourceGroup => d.groups

def setNavigator (d : Details) (family : DetailFamily) (n : DetailNavigator) : Details :=
  match family with
  | .resource => { d with resources := n }
  | .resourceGroup => { d with groups := n }

@[simp] theorem navigator_setNavigator_self (d : Details) (f : DetailFamily)
    (n : DetailNavigator) : (d.setNavigator f n).navigator f = n := by cases f <;> rfl

@[simp] theorem current_setNavigator (d : Details) (f : DetailFamily) (n : DetailNavigator) :
    (d.setNavigator f n).current = d.current := by cases f <;> rfl

/-- Nothing of the family is loaded, and nothing is shown. -/
def dropped (d : Details) (family : DetailFamily) : Details :=
  { d.setNavigator family (d.navigator family).clear with current := none }

/-- Shows a view of the family. -/
def shown (d : Details) (family : DetailFamily) (view : DetailView) : Details :=
  { d.setNavigator family ((d.navigator family).markLoaded view.target.entity) with
    current := some view }

end Details

/-- The console of one user: its detail views, the messages posted so far, and the source. -/
structure Session (σ : Type) where
  details : Details
  posted : List Message
  source : σ

namespace Session

def start {σ : Type} (source : σ) : Session σ := ⟨.empty, [], source⟩

def post {σ : Type} (s : Session σ) (m : Message) : Session σ :=
  { s with posted := s.posted ++ [m] }

end Session

namespace EntitySource

variable {σ : Type}

/-- Looks up the entity of a target; hidden groups are found only as what the target says. -/
def fetch (src : EntitySource σ) (entity : DetailEntity) (state : σ) :
    Except Fault (Option LoadedEntity) × σ :=
  let ofGroup (found : Except Fault (Option ResourceGroup) × σ) :
      Except Fault (Option LoadedEntity) × σ :=
    (found.1.map (·.map LoadedEntity.group), found.2)
  match entity with
  | .resource id =>
    let found := src.resource id state
    (found.1.map (·.map LoadedEntity.resource), found.2)
  | .group id => ofGroup (src.group id .visible state)
  | .autoGroup id => ofGroup (src.group id .autoGroup state)
  | .autoCluster id => ofGroup (src.group id .autoCluster state)

/-- Records a visit. What the source says to it does not matter. -/
def recordVisit (src : EntitySource σ) (entity : DetailEntity) (state : σ) : σ :=
  match entity with
  | .resource id => (src.addRecentResource id state).2
  | .group id => (src.addRecentGroup id state).2
  | .autoGroup _ | .autoCluster _ => state

/-- The entity with its type, or why they cannot be shown. -/
def loadView (src : EntitySource σ) (target : DetailTarget) (state : σ) :
    Except String DetailView × σ :=
  let entity := target.entity
  match src.fetch entity state with
  | (.error e, state) => (.error e.describe, state)
  | (.ok none, state) =>
    (.error (entity.noun ++ " with id [" ++ idText entity.rawId ++ "] does not exist."), state)
  | (.ok (some loaded), state) =>
    match loaded.typeId? with
    | none => (.ok ⟨target, loaded, none⟩, state)
    | some typeId =>
      match src.resourceType typeId state with
      | (.error e, state) => (.error e.describe, state)
      | (.ok none, state) =>
        (.error ("Resource type [" ++ typeId.text ++ "] does not exist."), state)
      | (.ok (some t), state) => (.ok ⟨target, loaded, some t⟩, state)

end EntitySource

/-- The warning about an entity that cannot be shown. -/
def loadFailure (entity : DetailEntity) (reason : String) : Message :=
  .warning ("Failed to load " ++ entity.commonNoun ++ " with id [" ++
    idText entity.rawId ++ "]") reason

namespace Session

variable {σ : Type}

/-- Loads a target. If that fails, the user is warned and led to the inventory. -/
def load (src : EntitySource σ) (family : DetailFamily) (target : DetailTarget) (s : Session σ) :
    DetailOutcome × Session σ :=
  match src.loadView target s.source with
  | (.error reason, source) =>
    (.redirect inventoryView,
      { s with details := s.details.dropped family, source }.post
        (loadFailure target.entity reason))
  | (.ok view, source) =>
    (.loaded view,
      { s with
        details := s.details.shown family view
        source := src.recordVisit target.entity source })

/-- Shows a target: the loaded entity on another tab, or else the entity fetched anew. -/
def present (src : EntitySource σ) (family : DetailFamily) (target : DetailTarget) (refresh : Bool)
    (s : Session σ) : DetailOutcome × Session σ :=
  match (s.details.navigator family).plan target refresh with
  | .selectTab target =>
    match s.details.current.filter fun v => v.target.entity = target.entity with
    | some view =>
      let view := { view with target }
      (.tabSelected view, { s with details := { s.details with current := some view } })
    | none => load src family target s
  | .reload target => load src family target s

/-- Shows what the rest of a path names. -/
def showDetail (src : EntitySource σ) (family : DetailFamily) (p : ViewPath) (s : Session σ) :
    Except Fault DetailOutcome × ViewPath × Session σ :=
  match family.readTarget p with
  | (.error e, p) => (.error e, p, s)
  | (.ok none, p) => (.ok (.landing family), p, s)
  | (.ok (some target), p) =>
    let (outcome, s) := present src family target p.refresh s
    (.ok outcome, p, s)

end Session

structure NavigationRequest where
  path : String
  refresh : Bool
  deriving DecidableEq, Repr

/-- What the console shows. -/
structure ViewState where
  /-- Counts the requests that were carried out, of which there are never `2 ^ 64`. -/
  generation : Nat
  path : String
  title : String
  route : Option Route
  detail : Option DetailView
  /-- Whether the entity was fetched for this view. -/
  reloaded : Bool
  error : Option String
  deriving DecidableEq, Repr

def ViewState.initial : ViewState := ⟨0, "", "", none, none, false, none⟩

/-- Who is looking, and what the product is called. -/
structure Viewer where
  granted : List Permission
  product : String
  deriving DecidableEq, Repr

def defaultProduct : String := "RHQ"

/-- One rendering ends in a view or leads to another path. -/
inductive Step
  | view (state : ViewState)
  | redirect (path : String)
  deriving DecidableEq, Repr

namespace Session

variable {σ : Type}

/-- The view of a route, and what a detail view makes of the rest of the path. -/
def renderRoute (src : EntitySource σ) (state : ViewState) (route : Route) (p : ViewPath)
    (s : Session σ) : Except Fault Step × Session σ :=
  match route with
  | .default => (.ok (.redirect defaultView), s)
  | route =>
    match route.detailFamily? with
    | none => (.ok (.view state), s)
    | some family =>
      match showDetail src family p s with
      | (.error e, _, s) => (.error e, s)
      | (.ok (.landing _), _, s) => (.ok (.view state), s)
      | (.ok (.loaded view), _, s) =>
        (.ok (.view { state with detail := some view, reloaded := true }), s)
      | (.ok (.tabSelected view), _, s) => (.ok (.view { state with detail := some view }), s)
      | (.ok (.redirect path), _, s) => (.ok (.redirect path), s)

/-- One rendering of a token. -/
def render (src : EntitySource σ) (viewer : Viewer) (token : String) (refresh : Bool)
    (s : Session σ) : Except Fault Step × Session σ :=
  let path := (ViewPath.ofToken token).withRefresh refresh
  let (route, p) := Route.read path
  match route.authorize viewer.granted with
  | .error e => (.error e, s)
  | .ok () =>
    let state := { ViewState.initial with
      path := path.text, title := path.title viewer.product, route := some route }
    renderRoute src state route p s

/-- Follows redirects, of which there may be `renderings - 1`. -/
def follow (src : EntitySource σ) (viewer : Viewer) (refresh : Bool) :
    (renderings : Nat) → (token : String) → Session σ → Except Fault ViewState × Session σ
  | 0, token, s =>
    (.error (.unknown "Too many view redirects" ("redirect limit reached at " ++ token)), s)
  | renderings + 1, token, s =>
    match render src viewer token refresh s with
    | (.error e, s) => (.error e, s)
    | (.ok (.view state), s) => (.ok state, s)
    | (.ok (.redirect path), s) => follow src viewer refresh renderings path s

/-- Carries out a request. -/
def navigate (src : EntitySource σ) (viewer : Viewer) (request : NavigationRequest)
    (s : Session σ) : Except Fault ViewState × Session σ :=
  follow src viewer request.refresh 3 request.path s

end Session

end FleetConsole.Navigation
