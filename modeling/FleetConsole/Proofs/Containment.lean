import Mathlib
import FleetConsole.Tree.Clusters

/-! The tree of a group by containment alone. Below, branches lie in branches, and which parent a
node names is read off where it lies; the tree itself is put together from nodes that name their
parents as they are made, and again when they are put somewhere else. Main statement: in the
finished tree the two are in step (`clusterTree_eq`). -/
namespace FleetConsole

theorem Cluster.induct {P : List Cluster → Prop}
    (step : ∀ clusters, (∀ c ∈ clusters, P c.children) → P clusters) (clusters : List Cluster) :
    P clusters :=
  step clusters fun c _ => below c
where
  below : ∀ c : Cluster, P c.children
    | ⟨_, _, _, _, _, children⟩ => step children fun c _ => below c

namespace Tree

namespace Branch

theorem induct {P : Branch → Prop}
    (step : ∀ node children, (∀ b ∈ children, P b) → P ⟨node, children⟩) : ∀ b, P b
  | ⟨node, children⟩ => step node children fun b _ => Branch.induct step b

/-- The branch as a list, each node before those below it and with the one it lies in as its
parent. -/
def flatten (parent : Option NodeId) : Branch → List Node
  | ⟨node, children⟩ =>
    { node with parentId := parent } :: (children.map (flatten (some node.id))).flatten

/-- The branch with the parents that its nodes have by containment. -/
def linked (parent : Option NodeId) : Branch → Branch
  | ⟨node, children⟩ => ⟨{ node with parentId := parent }, children.map (linked (some node.id))⟩

end Branch

/-- The folder of a sub-category while it is being filled. -/
structure Folder where
  subCategory : SubCategory
  nested : List Folder
  members : List Branch

namespace Folder

theorem induct {P : Folder → Prop}
    (step : ∀ sub nested members, (∀ f ∈ nested, P f) → P ⟨sub, nested, members⟩) : ∀ f, P f
  | ⟨sub, nested, members⟩ => step sub nested members fun f _ => Folder.induct step f

/-- Applies a change to the first folder of a sub-category, or to a new one at the end. -/
def upsert (sub : SubCategory) (change : Folder → Folder) : List Folder → List Folder
  | [] => [change ⟨sub, [], []⟩]
  | f :: rest =>
    if f.subCategory.id = sub.id then change f :: rest else f :: upsert sub change rest

/-- Files branches below a chain of sub-categories, outermost first. -/
def file : (chain : List SubCategory) → List Branch → List Folder → List Folder
  | [], _, folders => folders
  | [sub], branches, folders =>
    upsert sub (fun f => { f with members := f.members ++ branches }) folders
  | sub :: inner, branches, folders =>
    upsert sub (fun f => { f with nested := file inner branches f.nested }) folders

/-- The finished folder inside `container`. -/
def toBranch (container : NodeId) : Folder → Branch
  | ⟨sub, nested, members⟩ =>
    let node := categoryFolderNode container sub
    ⟨node, Branch.sort (nested.map (toBranch node.id) ++ members)⟩

end Folder

/-- The folder of all clusters of one type below `container`. -/
def typeFolder (container : NodeId) (t : ResourceType) (members : List Branch) : Branch :=
  ⟨typeFolderNode container t, Branch.sort members⟩

/-- The branches of one type: as they are, or in a folder if the type may occur more than once. -/
def typedBranches (container : NodeId) (t : Option ResourceType) (members : List Branch) :
    List Branch :=
  match t with
  | some t => if t.singleton then members else [typeFolder container t members]
  | none => members

/-- What lies directly below a node: loose branches, and the folders of sub-categories. -/
structure Shelf where
  loose : List Branch
  folders : List Folder

/-- Puts the branches of one type where they belong. -/
def Shelf.add (catalog : Catalog) (container : NodeId) (shelf : Shelf)
    (typed : TypeId × List Branch) : Shelf :=
  let t := catalog.type? typed.1
  let branches := typedBranches container t typed.2
  match subCategoryPath catalog t with
  | [] => { shelf with loose := shelf.loose ++ branches }
  | path => { shelf with folders := Folder.file path branches shelf.folders }

/-- The branches of each type, the types in the order of their first branches. -/
def byType (clusters : List (TypeId × Branch)) : List (TypeId × List Branch) :=
  (groupByKey (·.1) clusters).map fun typed => (typed.1, typed.2.map (·.2))

/-- The clusters below a node, each given with its type, as they are arranged there. -/
def arrangeBelow (catalog : Catalog) (container : NodeId) (clusters : List (TypeId × Branch)) :
    List Branch :=
  let shelf := (byType clusters).foldl (Shelf.add catalog container) ⟨[], []⟩
  Branch.sort (shelf.loose ++ shelf.folders.map (Folder.toBranch container))

/-- A cluster with everything below it. -/
def clusterBranch (catalog : Catalog) (container : NodeId) (parentKey : ClusterKey) :
    Cluster → Branch
  | ⟨typeId, resourceKey, name, members, clusterSize, children⟩ =>
    let key := parentKey.child typeId resourceKey
    let node := clusterNode container key (catalog.type? typeId)
      ⟨typeId, resourceKey, name, members, clusterSize, children⟩
    ⟨node, arrangeBelow catalog node.id
      ((children.map Cluster.typeId).zip (children.map (clusterBranch catalog node.id key)))⟩

def groupBranch (catalog : Catalog) (g : ResourceGroup) (clusters : List Cluster) : Branch :=
  let node := groupNode catalog g clusters
  let key := ClusterKey.root g.id
  ⟨node, arrangeBelow catalog node.id
    (clusters.map fun c => (c.typeId, clusterBranch catalog node.id key c))⟩

namespace Branch

variable {parent : Option NodeId}

theorem linked_eq (b : Branch) : b.linked parent =
    ⟨{ b.node with parentId := parent }, b.children.map (linked (some b.node.id))⟩ := by
  obtain ⟨node, children⟩ := b
  rw [linked]

theorem flatten_eq (parent : Option NodeId) (b : Branch) :
    b.flatten parent =
      { b.node with parentId := parent } :: b.children.flatMap (flatten (some b.node.id)) := by
  obtain ⟨node, children⟩ := b
  rw [flatten, List.flatMap_def]

theorem nodes_eq (b : Branch) : b.nodes = b.node :: b.children.flatMap nodes := by
  obtain ⟨node, children⟩ := b
  rw [nodes, List.flatMap_def]

theorem nodes_linked (b : Branch) : (b.linked parent).nodes = b.flatten parent := by
  induction b using Branch.induct generalizing parent with
  | step node children ih =>
    rw [linked_eq, nodes_eq, flatten_eq, List.flatMap_map]
    exact congrArg _ (List.flatMap_congr fun c hc => ih c hc)

/-- A branch that is put somewhere else is in step again: what lies below it still does. -/
theorem under_linked (container : NodeId) (b : Branch) :
    (b.linked parent).under container = b.linked (some container) := by
  rw [under, linked_eq, linked_eq]

theorem precedes_linked (a b : Branch) :
    (a.linked parent).precedes (b.linked parent) = a.precedes b := by
  rw [linked_eq, linked_eq]
  rfl

theorem sort_map_linked (branches : List Branch) :
    sort (branches.map (linked parent)) = (sort branches).map (linked parent) :=
  (List.map_mergeSort fun a _ b _ => (precedes_linked a b).symm).symm

end Branch

open Branch (linked sort_map_linked)

section Folders

variable {parent : Option NodeId} {container : NodeId}

theorem map_under_map_linked (branches : List Branch) :
    (branches.map (linked parent)).map (Branch.under container) =
      branches.map (linked (some container)) := by
  simp [Function.comp_def, Branch.under_linked]

theorem autoGroup_linked (t : ResourceType) (members : List Branch) :
    autoGroup container t (members.map (linked parent)) =
      (typeFolder container t members).linked (some container) := by
  rw [autoGroup, typeFolder, linked, map_under_map_linked, sort_map_linked]
  rfl

theorem autoGrouped_linked (t : Option ResourceType) (members : List Branch) :
    autoGrouped container t (members.map (linked (some container))) =
      (typedBranches container t members).map (linked (some container)) := by
  cases t with
  | none => rfl
  | some t =>
    simp only [autoGrouped, typedBranches]
    split
    · rfl
    · rw [autoGroup_linked, List.map_singleton]

/-- The folder as it is kept while the tree is put together, inside `container`. -/
def Folder.dressed (container : NodeId) : Folder → CategoryFolder
  | ⟨sub, nested, members⟩ =>
    let node := categoryFolderNode container sub
    ⟨sub.id, node, nested.map (dressed node.id), members.map (linked (some node.id))⟩

theorem Folder.dressed_eq (container : NodeId) (f : Folder) : f.dressed container =
    ⟨f.subCategory.id, categoryFolderNode container f.subCategory,
      f.nested.map (dressed (categoryFolderNode container f.subCategory).id),
      f.members.map (linked (some (categoryFolderNode container f.subCategory).id))⟩ := by
  obtain ⟨sub, nested, members⟩ := f
  rw [dressed]

theorem Folder.empty_eq_dressed (sub : SubCategory) :
    CategoryFolder.empty container sub = dressed container ⟨sub, [], []⟩ := by
  rw [dressed]
  rfl

theorem Folder.upsert_dressed {sub : SubCategory} {change : CategoryFolder → CategoryFolder}
    {change' : Folder → Folder}
    (hchange : ∀ f, change (dressed container f) = dressed container (change' f))
    (folders : List Folder) :
    CategoryFolder.upsert container sub change (folders.map (dressed container)) =
      (upsert sub change' folders).map (dressed container) := by
  induction folders with
  | nil => simp [CategoryFolder.upsert, upsert, empty_eq_dressed, hchange]
  | cons f rest ih =>
    have hid : (f.dressed container).subCategoryId = f.subCategory.id := by rw [dressed_eq]
    rw [List.map_cons, CategoryFolder.upsert, upsert, hid]
    split
    · rw [hchange, List.map_cons]
    · rw [ih, List.map_cons]

theorem Folder.add_dressed (branches : List Branch) (f : Folder) :
    CategoryFolder.add (branches.map (linked parent)) (f.dressed container) =
      dressed container { f with members := f.members ++ branches } := by
  rw [CategoryFolder.add, dressed_eq, dressed_eq, map_under_map_linked, List.map_append]

theorem Folder.file_dressed (path : List SubCategory) (branches : List Branch)
    (folders : List Folder) :
    CategoryFolder.file container path (branches.map (linked parent))
        (folders.map (dressed container)) =
      (file path branches folders).map (dressed container) := by
  induction path generalizing container folders with
  | nil => rfl
  | cons sub inner ih =>
    cases inner with
    | nil =>
      rw [CategoryFolder.file, file]
      exact upsert_dressed (add_dressed branches) folders
    | cons next rest =>
      rw [CategoryFolder.file, file]
      · refine upsert_dressed (fun f => ?_) folders
        rw [dressed_eq, dressed_eq, ih]
      · simp
      · simp

theorem Folder.toBranch_dressed (f : Folder) :
    (f.dressed container).toBranch = (f.toBranch container).linked (some container) := by
  induction f using Folder.induct generalizing container with
  | step sub nested members ih =>
    let inner := (categoryFolderNode container sub).id
    have hnested : (nested.map (dressed inner)).map CategoryFolder.toBranch =
        (nested.map (toBranch inner)).map (linked (some inner)) := by
      rw [List.map_map, List.map_map]
      exact List.map_congr_left fun f hf => ih f hf
    rw [dressed, CategoryFolder.toBranch, toBranch, linked, ← sort_map_linked, List.map_append,
      hnested]
    rfl

end Folders

section Siblings

variable {catalog : Catalog} {container : NodeId}

theorem groupByKey_map {K α β : Type} [DecidableEq K] (key : β → K) (f : α → β) (l : List α) :
    groupByKey key (l.map f) = (groupByKey (key ∘ f) l).map fun g => (g.1, g.2.map f) := by
  induction l with
  | nil => rfl
  | cons a rest ih =>
    rw [List.map_cons, groupByKey, groupByKey, ih]
    simp [List.filter_map, List.flatMap_map, List.map_flatMap, Function.comp_def]

theorem byType_map_linked (clusters : List (TypeId × Branch)) :
    byType (clusters.map fun c => (c.1, c.2.linked (some container))) =
      (byType clusters).map fun typed => (typed.1, typed.2.map (linked (some container))) := by
  rw [byType, byType, groupByKey_map]
  simp [Function.comp_def]

/-- What lies below `container` as it is kept while the tree is put together. -/
def Shelf.siblings (container : NodeId) (s : Shelf) : Siblings :=
  ⟨s.loose.map (linked (some container)), s.folders.map (Folder.dressed container)⟩

theorem Shelf.siblings_add (s : Shelf) (typed : TypeId × List Branch) :
    (s.siblings container).add catalog container
        (typed.1, typed.2.map (linked (some container))) =
      (s.add catalog container typed).siblings container := by
  simp only [Siblings.add, Shelf.add, autoGrouped_linked]
  cases subCategoryPath catalog (catalog.type? typed.1) with
  | nil => simp only [siblings, List.map_append]
  | cons sub inner => simp only [siblings, Folder.file_dressed]

theorem Shelf.siblings_foldl_add (s : Shelf) (typed : List (TypeId × List Branch)) :
    (typed.map fun t => (t.1, t.2.map (linked (some container)))).foldl
        (Siblings.add catalog container) (s.siblings container) =
      (typed.foldl (Shelf.add catalog container) s).siblings container := by
  induction typed generalizing s with
  | nil => rfl
  | cons first rest ih => rw [List.map_cons, List.foldl_cons, List.foldl_cons, siblings_add, ih]

theorem Shelf.branches_siblings (s : Shelf) : (s.siblings container).branches =
    (Branch.sort (s.loose ++ s.folders.map (Folder.toBranch container))).map
      (linked (some container)) := by
  have hfolders : (s.folders.map (Folder.dressed container)).map CategoryFolder.toBranch =
      (s.folders.map (Folder.toBranch container)).map (linked (some container)) := by
    rw [List.map_map, List.map_map]
    exact List.map_congr_left fun f _ => f.toBranch_dressed
  rw [siblings, Siblings.branches, hfolders, ← List.map_append, sort_map_linked]

/-- Branches that are in step stay so when they are arranged below a node. -/
theorem branchesBelow_linked (clusters : List (TypeId × Branch)) :
    branchesBelow catalog container
        (clusters.map fun c => (c.1, c.2.linked (some container))) =
      (arrangeBelow catalog container clusters).map (linked (some container)) := by
  have hempty : (⟨[], []⟩ : Siblings) = Shelf.siblings container ⟨[], []⟩ := rfl
  rw [branchesBelow, ← byType, byType_map_linked, hempty, Shelf.siblings_foldl_add,
    Shelf.branches_siblings, arrangeBelow]

end Siblings

section Clusters

variable (catalog : Catalog)

theorem clusterSubtree_eq {clusters : List Cluster} {c : Cluster} (h : c ∈ clusters)
    (container : NodeId) (key : ClusterKey) : clusterSubtree catalog container key c =
      (clusterBranch catalog container key c).linked (some container) := by
  induction clusters using Cluster.induct generalizing c container key with
  | step clusters ih =>
    obtain ⟨typeId, resourceKey, name, members, clusterSize, children⟩ := c
    rw [clusterSubtree, clusterBranch, linked, ← branchesBelow_linked, List.zip_map', List.zip_map',
      List.map_map]
    congr 1
    refine congrArg _ (List.map_congr_left fun c hc => ?_)
    exact Prod.ext rfl (ih _ h hc _ _)

theorem groupSubtree_eq (g : ResourceGroup) (clusters : List Cluster) :
    groupSubtree catalog g clusters = (groupBranch catalog g clusters).linked none := by
  rw [groupSubtree, groupBranch, linked, ← branchesBelow_linked, List.map_map]
  congr 1
  refine congrArg _ (List.map_congr_left fun c hc => ?_)
  exact Prod.ext rfl (clusterSubtree_eq catalog hc _ _)

/-- However often a branch was put somewhere else, each node of the finished tree names the one that
it lies in. -/
theorem clusterTree_eq (g : ResourceGroup) (clusters : List Cluster) :
    clusterTree catalog g clusters = (groupBranch catalog g clusters).flatten none := by
  rw [clusterTree, groupSubtree_eq, Branch.nodes_linked]

end Clusters

end Tree

end FleetConsole
