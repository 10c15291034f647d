import FleetConsole.Report.Row
import FleetConsole.Tree.Checked

/-! The inventory: what is managed, and what is known about it. Trees are sent in steps, a first one
and then the children of any one resource. -/
namespace FleetConsole

/-- Facts by key. Of two with one key the later counts. -/
abbrev Facts (K V : Type) := List (K × V)

namespace Facts

variable {K V : Type} [DecidableEq K]

def get? : Facts K V → K → Option V
  | [], _ => none
  | (k, v) :: rest, key => (get? rest key).or (if k = key then some v else none)

@[simp] theorem get?_nil (key : K) : get? ([] : Facts K V) key = none := rfl

theorem get?_append (s t : Facts K V) (key : K) :
    get? (s ++ t) key = (get? t key).or (get? s key) := by
  induction s with
  | nil => simp
  | cons fact rest ih => simp [get?, ih, Option.or_assoc]

@[simp] theorem get?_append_singleton (s : Facts K V) (key : K) (v : V) :
    get? (s ++ [(key, v)]) key = some v := by
  simp [get?_append, get?]

theorem isSome_get?_iff {facts : Facts K V} {key : K} :
    (get? facts key).isSome ↔ key ∈ facts.map Prod.fst := by
  induction facts with
  | nil => simp
  | cons fact rest ih =>
    rw [get?, List.map_cons, List.mem_cons, Option.isSome_or, Bool.or_eq_true, ih]
    by_cases h : fact.1 = key
    · simp [h]
    · simp [h, Ne.symm h]

end Facts

structure Inventory where
  catalog : Catalog
  resources : List Resource
  /-- Hidden groups are among them. -/
  groups : List ResourceGroup
  clusters : Facts GroupId (List Cluster)
  /-- Resources the viewer may see but not act on. -/
  locked : List ResourceId
  versions : Facts ResourceId String
  /-- Known for resources with drift definitions. -/
  driftCompliance : Facts ResourceId Bool
  alertDefinitions : List Report.AlertDefinitionRow
  configurationUpdates : List Report.ConfigurationUpdateRow
  suspectMetrics : List Report.SuspectMetricRow
  alerts : List Report.AlertRow
  operations : List Report.OperationRow
  drift : List Report.DriftRow

namespace Inventory

def empty : Inventory where
  catalog := .empty
  resources := []
  groups := []
  clusters := []
  locked := []
  versions := []
  driftCompliance := []
  alertDefinitions := []
  configurationUpdates := []
  suspectMetrics := []
  alerts := []
  operations := []
  drift := []

def resource? (inv : Inventory) (id : ResourceId) : Option Resource :=
  inv.resources.find? (·.id = id)

def group? (inv : Inventory) (id : GroupId) (visibility : GroupVisibility) :
    Option ResourceGroup :=
  inv.groups.find? fun g => g.id = id && g.isVisibleAs visibility

/-- Ids of the resources without a parent. -/
def rootIds (inv : Inventory) : List ResourceId :=
  (inv.resources.filter fun r => r.parentId.isNone).map Resource.id

/-- What the first step sends: the resources without a parent and their children. -/
def topBatch (inv : Inventory) : List Resource :=
  inv.resources.filter fun r => r.parentId.all inv.rootIds.contains

def childrenOf (inv : Inventory) (parent : ResourceId) : List Resource :=
  inv.resources.filter (·.parentId = some parent)

/-- Surroundings of a batch on a page that shows some nodes already. -/
def surroundings (inv : Inventory) (rendered : List Tree.NodeId) : Tree.Surroundings :=
  ((Tree.Surroundings.ofCatalog inv.catalog).withLocked inv.locked).withRendered rendered

/-- One step of the tree of resources: the first, or the children of a resource. -/
def resourceTree (inv : Inventory) (parent : Option ResourceId) (rendered : List Tree.NodeId) :
    Except Fault Tree.Build :=
  match parent with
  | none => (inv.surroundings rendered).checkedBuild inv.topBatch
  | some id =>
    match inv.resource? id with
    | none => .error (Tree.unknownResource id)
    | some r => ((inv.surroundings rendered).withAnchor r).checkedBuild (inv.childrenOf id)

/-- The tree of a group that users made. -/
def groupTree (inv : Inventory) (id : GroupId) : Except Fault (List Tree.Node) :=
  match inv.group? id .visible with
  | none => .error (Tree.unknownGroup id)
  | some g => Tree.checkedClusterTree inv.catalog g ((inv.clusters.get? id).getD [])

end Inventory

end FleetConsole
