import FleetConsole.Resource

/-! Groups of resources, and the clusters of like resources below the members of a group. -/
namespace FleetConsole

inductive GroupCategory
  | compatible | mixed
  deriving DecidableEq, Repr

namespace GroupCategory

def name : GroupCategory → String
  | .compatible => "COMPATIBLE"
  | .mixed => "MIXED"

def ofName? : String → Option GroupCategory
  | "COMPATIBLE" => some .compatible
  | "MIXED" => some .mixed
  | _ => none

@[simp] theorem ofName?_name (c : GroupCategory) : ofName? c.name = some c := by cases c <;> rfl

end GroupCategory

structure ResourceGroup where
  id : GroupId
  name : String
  description : Option String
  category : GroupCategory
  typeId : Option TypeId
  /-- Set for a group that stands behind the folder of one type below a resource. -/
  autoGroupParentId : Option ResourceId
  /-- Set for a group that stands behind a cluster. -/
  clusterKey : Option String
  deriving DecidableEq, Repr

/-- Which groups a lookup may return: the ones users made, or one of the two hidden kinds. -/
inductive GroupVisibility
  | visible | autoGroup | autoCluster
  deriving DecidableEq, Repr

def ResourceGroup.isVisibleAs (g : ResourceGroup) : GroupVisibility → Bool
  | .visible => g.autoGroupParentId.isNone && g.clusterKey.isNone
  | .autoGroup => g.autoGroupParentId.isSome
  | .autoCluster => g.clusterKey.isSome

/-- Where a cluster stands below a group: the type and key of each cluster on the way down. -/
structure ClusterKey where
  groupId : GroupId
  path : List (TypeId × String)
  deriving DecidableEq, Repr

namespace ClusterKey

def root (groupId : GroupId) : ClusterKey := ⟨groupId, []⟩

def child (k : ClusterKey) (typeId : TypeId) (resourceKey : String) : ClusterKey :=
  { k with path := k.path ++ [(typeId, resourceKey)] }

def isRoot (k : ClusterKey) : Bool := k.path.isEmpty

/-- The key as one text, its parts set off by colons. -/
def text (k : ClusterKey) : String :=
  k.path.foldl (fun s step => s ++ ":" ++ step.1.text ++ ":" ++ step.2) k.groupId.text

@[simp] theorem text_root (groupId : GroupId) : (root groupId).text = groupId.text := rfl

@[simp] theorem text_child (k : ClusterKey) (typeId : TypeId) (resourceKey : String) :
    (k.child typeId resourceKey).text = k.text ++ ":" ++ typeId.text ++ ":" ++ resourceKey := by
  simp [text, child]

end ClusterKey

/-- A cluster as the inventory sums it up: the resources with one type and key below the members
of a group. -/
structure Cluster where
  typeId : TypeId
  resourceKey : String
  name : String
  /-- How many group members have a resource in the cluster. -/
  members : Nat
  /-- How many group members there are. -/
  clusterSize : Nat
  children : List Cluster
  deriving Repr

end FleetConsole
