import FleetConsole.Group

/-! Nodes of the navigation trees. A tree is sent as a list in which every node comes after the
node it names as its parent. -/
namespace FleetConsole.Tree

structure NodeId where
  text : String
  deriving DecidableEq, Repr, Inhabited

namespace NodeId

def resource (id : ResourceId) : NodeId := ⟨id.text⟩

/-- The folder of a sub-category below a resource. -/
def subCategory (id : SubCategoryId) (anchor : ResourceId) : NodeId :=
  ⟨"subcat_" ++ id.text ++ "_" ++ anchor.text⟩

/-- The folder of all resources of one type below a resource. -/
def autoGroup (id : TypeId) (anchor : ResourceId) : NodeId :=
  ⟨"autogroup_" ++ id.text ++ "_" ++ anchor.text⟩

end NodeId

inductive NodeKind
  | resource (id : ResourceId) (typeId : TypeId) (category : Option Category)
      (availability : Availability)
  | group (id : GroupId) (groupCategory : GroupCategory) (typeId : Option TypeId)
      (category : Option Category)
  | cluster (key : ClusterKey) (typeId : TypeId) (category : Option Category)
  | category (subCategoryId : Option SubCategoryId) (anchor : NodeId)
  | autoGroup (typeId : TypeId) (anchor : NodeId) (category : Option Category)
      (backingGroupName : Option String)
  deriving DecidableEq, Repr

inductive NodeClass
  | entity | category | autoGroup
  deriving DecidableEq, Repr

def NodeClass.name : NodeClass → String
  | .entity => "entity"
  | .category => "category"
  | .autoGroup => "auto_group"

namespace NodeKind

def nodeClass : NodeKind → NodeClass
  | .resource .. | .group .. | .cluster .. => .entity
  | .category .. => .category
  | .autoGroup .. => .autoGroup

/-- Folders that stand for no entity of the inventory. -/
def isSynthetic (k : NodeKind) : Bool := k.nodeClass ≠ .entity

end NodeKind

structure Node where
  id : NodeId
  parentId : Option NodeId
  kind : NodeKind
  name : String
  description : Option String
  tooltip : Option String
  isFolder : Bool
  locked : Bool
  deriving DecidableEq, Repr

end FleetConsole.Tree
