import FleetConsole.Text.Markup
import FleetConsole.Text.Plural
import FleetConsole.Tree.Node
import FleetConsole.Tree.ParentFirst

/-! The tree of resources. A batch of resources becomes a list of nodes, parents first. Between a
resource and its parent there may be folders: one for all resources of a type, or one for each
sub-category of the type. They are added when the first resource needs them, unless the page shows
them already. -/
namespace FleetConsole.Tree

/-- What a build has to say about its input. -/
inductive Diagnostic
  | duplicateEntity (id : ResourceId)
  | parentCycle (id : ResourceId)
  | orphanReanchored (id missingParent : ResourceId)
  | unknownResourceType (id : ResourceId) (typeId : TypeId)
  | unknownSubCategory (typeId : TypeId) (id : SubCategoryId)
  | subCategoryCycle (typeId : TypeId) (id : SubCategoryId)
  deriving DecidableEq, Repr

/-- What a batch is placed into. -/
structure Surroundings where
  catalog : Catalog
  /-- Resources the viewer may see but not act on. -/
  locked : List ResourceId
  /-- Nodes that the page shows already. -/
  rendered : List NodeId
  /-- Names of shown resources whose children may be in the batch. -/
  anchors : List (ResourceId × String)
  deriving DecidableEq, Repr

namespace Surroundings

def ofCatalog (catalog : Catalog) : Surroundings := ⟨catalog, [], [], []⟩

def withLocked (s : Surroundings) (ids : List ResourceId) : Surroundings :=
  { s with locked := s.locked ++ ids }

def withRendered (s : Surroundings) (ids : List NodeId) : Surroundings :=
  { s with rendered := s.rendered ++ ids }

/-- A resource shown already; of two with one id the later counts. -/
def withAnchor (s : Surroundings) (anchor : Resource) : Surroundings :=
  { s with
    rendered := NodeId.resource anchor.id :: s.rendered
    anchors := (anchor.id, anchor.name) :: s.anchors }

def anchorName? (s : Surroundings) (id : ResourceId) : Option String :=
  (s.anchors.find? (·.1 = id)).map (·.2)

end Surroundings

/-- The nodes and remarks of a build. -/
structure Build where
  nodes : List Node
  diagnostics : List Diagnostic
  deriving DecidableEq, Repr

namespace Build

def empty : Build := ⟨[], []⟩

def push (b : Build) (node : Node) : Build := { b with nodes := b.nodes ++ [node] }

/-- Remarks are made once. -/
def remark (b : Build) (d : Diagnostic) : Build :=
  if b.diagnostics.contains d then b else { b with diagnostics := b.diagnostics ++ [d] }

def hasNode (b : Build) (id : NodeId) : Bool := b.nodes.any (·.id = id)

def node? (b : Build) (id : NodeId) : Option Node := b.nodes.find? (·.id = id)

def position? (b : Build) (id : NodeId) : Option Nat := b.nodes.findIdx? (·.id = id)

@[simp] theorem nodes_push (b : Build) (node : Node) : (b.push node).nodes = b.nodes ++ [node] :=
  rfl

@[simp] theorem diagnostics_push (b : Build) (node : Node) :
    (b.push node).diagnostics = b.diagnostics := rfl

@[simp] theorem nodes_remark (b : Build) (d : Diagnostic) : (b.remark d).nodes = b.nodes := by
  unfold remark
  split <;> rfl

end Build

/-- The rows with new ids, and the ids of the rows that repeat one. -/
def splitRepeats : (seen : List ResourceId) → List Resource → List Resource × List ResourceId
  | _, [] => ([], [])
  | seen, r :: rest =>
    if seen.contains r.id then
      let (first, again) := splitRepeats seen rest
      (first, r.id :: again)
    else
      let (first, again) := splitRepeats (r.id :: seen) rest
      (r :: first, again)

/-- The first row of each id. -/
def firstRows (rows : List Resource) : List Resource := (splitRepeats [] rows).1

namespace Surroundings

/-- Whether a node is shown, or among those of the build. -/
def isPresent (s : Surroundings) (b : Build) (id : NodeId) : Bool :=
  b.hasNode id || s.rendered.contains id

def addMissing (s : Surroundings) (b : Build) (node : Node) : Build :=
  if s.isPresent b node.id then b else b.push node

/-- The name of the group behind an automatic folder: that of the resource above it, if known,
and of the type. -/
def backingGroupName (s : Surroundings) (batch : List Resource) (parentId : ResourceId)
    (t : ResourceType) : Option String :=
  (((batch.find? (·.id = parentId)).map Resource.name).or (s.anchorName? parentId)).map
    fun name => name ++ " ( " ++ t.name ++ " )"

/-- The folder of all resources of one type below a resource. -/
def autoGroupNode (s : Surroundings) (batch : List Resource) (parentId : ResourceId)
    (t : ResourceType) : Node where
  id := NodeId.autoGroup t.id parentId
  parentId := some (NodeId.resource parentId)
  kind := .autoGroup t.id (NodeId.resource parentId) (some t.category)
    (s.backingGroupName batch parentId t)
  name := Text.plural t.name
  description := t.description
  tooltip := none
  isFolder := true
  locked := false

end Surroundings

/-- The folder of a sub-category, inside the folder or resource `parent`. -/
def categoryNode (anchor : ResourceId) (parent : NodeId) (sub : SubCategory) : Node where
  id := NodeId.subCategory sub.id anchor
  parentId := some parent
  kind := .category (some sub.id) (NodeId.resource anchor)
  name := sub.name
  description := some sub.name
  tooltip := none
  isFolder := true
  locked := false

namespace Surroundings

/-- Adds the missing folders of sub-categories, given outermost first, and says which node is the
innermost. -/
def addFolders (s : Surroundings) (anchor : ResourceId) :
    (parent : NodeId) → List SubCategory → Build → Build × NodeId
  | parent, [], b => (b, parent)
  | parent, sub :: inner, b =>
    s.addFolders anchor (NodeId.subCategory sub.id anchor) inner
      (s.addMissing b (categoryNode anchor parent sub))

/-- What the end of a chain of sub-categories gives to remark. -/
def remarkEnding (b : Build) (typeId : TypeId) : Catalog.ChainEnd → Build
  | .top => b
  | .repeated id => b.remark (.subCategoryCycle typeId id)
  | .unknown id => b.remark (.unknownSubCategory typeId id)

/-- Finds the node that a resource hangs under and adds the folders on the way to it. -/
def hang (s : Surroundings) (batch : List Resource) (b : Build) (r : Resource) :
    Build × Option NodeId :=
  match r.parentId with
  | none => (b, none)
  | some parentId =>
    let parent := NodeId.resource parentId
    if !s.isPresent b parent then (b.remark (.orphanReanchored r.id parentId), none)
    else
      match s.catalog.type? r.typeId with
      | none => (b.remark (.unknownResourceType r.id r.typeId), some parent)
      | some t =>
        if !t.singleton then
          (s.addMissing b (s.autoGroupNode batch parentId t),
            some (NodeId.autoGroup t.id parentId))
        else
          match t.subCategoryId with
          | none => (b, some parent)
          | some sub =>
            let chain := s.catalog.chain sub
            let (b, folder) := s.addFolders parentId parent chain.members.reverse
              (remarkEnding b t.id chain.ending)
            (b, some folder)

def resourceNode (s : Surroundings) (parent : Option NodeId) (r : Resource) : Node :=
  let t := s.catalog.type? r.typeId
  { id := NodeId.resource r.id
    parentId := parent
    kind := .resource r.id r.typeId (t.map ResourceType.category) r.availability
    name := Text.escapeHtml r.name
    description := r.description.map Text.escapeHtml
    tooltip := none
    isFolder := t.any ResourceType.hasChildTypes
    locked := s.locked.contains r.id }

/-- Places one resource. -/
def place (s : Surroundings) (batch : List Resource) (b : Build) (r : Resource) : Build :=
  let (b, parent) := s.hang batch b r
  b.push (s.resourceNode parent r)

end Surroundings

def isAutoGroupNamed (parent : Option NodeId) (name : String) (node : Node) : Bool :=
  node.kind.nodeClass = .autoGroup && node.parentId = parent && node.name = name

/-- The name of an automatic folder that tells it from one beside it with the same plural. -/
def pluginName (t : ResourceType) : String :=
  Text.plural t.name ++ " (" ++ t.plugin ++ " plugin)"

/-- Automatic folders with one name below one node get the plugin of their type added. -/
def disambiguate (catalog : Catalog) (nodes : List Node) : List Node :=
  nodes.map fun node =>
    match node.kind with
    | .autoGroup typeId _ _ _ =>
      if 1 < nodes.countP (isAutoGroupNamed node.parentId node.name) then
        match catalog.type? typeId with
        | some t => { node with name := pluginName t }
        | none => node
      else node
    | _ => node

namespace Surroundings

/-- The order in which the first rows are placed. -/
def placement (rows : List Resource) : ParentFirst :=
  ParentFirst.ofLinks ((firstRows rows).map fun r => (r.id, r.parentId))

/-- The tree of a batch. Rows that repeat an id and rows on or below a circle of parents are left
out with a remark. -/
def build (s : Surroundings) (rows : List Resource) : Build :=
  let batch := firstRows rows
  let order := placement rows
  let start : Build :=
    { nodes := []
      diagnostics := (splitRepeats [] rows).2.map Diagnostic.duplicateEntity ++
        (order.cyclic.filterMap (batch[·]?)).map fun r => Diagnostic.parentCycle r.id }
  let placed := (order.ordered.filterMap (batch[·]?)).foldl (s.place batch) start
  { placed with nodes := disambiguate s.catalog placed.nodes }

end Surroundings

end FleetConsole.Tree
