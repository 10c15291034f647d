import FleetConsole.Number.Rounding
import FleetConsole.Text.Case
import FleetConsole.Text.Markup
import FleetConsole.Text.Plural
import FleetConsole.Tree.Node

/-! The tree of a group and the clusters below its members. Clusters of a type that may occur more
than once share a folder, and types with a sub-category are filed in its folder; siblings are
sorted. -/
namespace FleetConsole.Tree

/-- A node with everything below it. Each node names its parent, and has to be told when it is put
somewhere else. -/
structure Branch where
  node : Node
  children : List Branch

namespace Branch

/-- The nodes of the branch, each before those below it. -/
def nodes : Branch → List Node
  | ⟨node, children⟩ => node :: (children.map nodes).flatten

/-- The branch with another parent. -/
def under (parent : NodeId) (b : Branch) : Branch := { b with node.parentId := some parent }

/-- Folders without an entity come first, then entities with something below them. -/
def rank (b : Branch) : Nat :=
  if !b.node.isFolder then 2 else if b.node.kind.isSynthetic then 0 else 1

def sortName (b : Branch) : String := Text.lower b.node.name

def precedes (a b : Branch) : Bool :=
  a.rank < b.rank || (a.rank == b.rank && a.sortName ≤ b.sortName)

def sort (branches : List Branch) : List Branch := branches.mergeSort precedes

end Branch

/-- The folder of a sub-category while it is being filled. -/
structure CategoryFolder where
  subCategoryId : SubCategoryId
  node : Node
  nested : List CategoryFolder
  members : List Branch

def categoryFolderNode (container : NodeId) (sub : SubCategory) : Node where
  id := ⟨container.text ++ ":cat" ++ sub.name⟩
  parentId := some container
  kind := .category (some sub.id) container
  name := sub.name
  description := none
  tooltip := none
  isFolder := true
  locked := false

namespace CategoryFolder

def empty (container : NodeId) (sub : SubCategory) : CategoryFolder :=
  ⟨sub.id, categoryFolderNode container sub, [], []⟩

/-- Applies a change to the first folder of a sub-category, or to a new one at the end. -/
def upsert (container : NodeId) (sub : SubCategory) (change : CategoryFolder → CategoryFolder) :
    List CategoryFolder → List CategoryFolder
  | [] => [change (empty container sub)]
  | f :: rest =>
    if f.subCategoryId = sub.id then change f :: rest else f :: upsert container sub change rest

/-- Puts branches at the end of a folder. -/
def add (branches : List Branch) (f : CategoryFolder) : CategoryFolder :=
  { f with members := f.members ++ branches.map (Branch.under f.node.id) }

/-- Files branches below a chain of sub-categories, outermost first. -/
def file (container : NodeId) : (chain : List SubCategory) → List Branch →
    List CategoryFolder → List CategoryFolder
  | [], _, folders => folders
  | [sub], branches, folders => upsert container sub (add branches) folders
  | sub :: inner, branches, folders =>
    upsert container sub (fun f => { f with nested := file f.node.id inner branches f.nested })
      folders

def toBranch : CategoryFolder → Branch
  | ⟨_, node, nested, members⟩ => ⟨node, Branch.sort (nested.map toBranch ++ members)⟩

end CategoryFolder

/-- Items by key, the keys in the order of their first items. -/
def groupByKey {K α : Type} [DecidableEq K] (key : α → K) : List α → List (K × List α)
  | [] => []
  | a :: rest =>
    let others := groupByKey key rest
    (key a, a :: (others.filter (·.1 = key a)).flatMap (·.2)) ::
      others.filter (·.1 ≠ key a)

/-- A percentage: the quotient and its hundredfold are rounded to doubles, then to a whole number
with halves going up. -/
def percent (part whole : Nat) : Nat :=
  if part = 0 then 0
  else
    let quotient := (Number.Dyadic.nearest 53 (-1074) part whole).fraction
    let hundredfold := (Number.Dyadic.nearest 53 (-1074) (100 * quotient.1) quotient.2).fraction
    Number.roundHalfUp hundredfold.1 hundredfold.2

/-- Says that a cluster does not span the whole group. -/
def partialTooltip (members size : Nat) (name : String) : String :=
  toString members ++ " out of " ++ toString size ++ " group members have \"" ++
    Text.escapeHtml name ++ "\" child resources (" ++ toString (percent members size) ++ "%)"

/-- The name shown for a cluster: its own, unless its members disagree on one. -/
def clusterName (t : Option ResourceType) (c : Cluster) : String :=
  if c.name = "..." then
    "Group of " ++ ((t.map ResourceType.name).getD ("type " ++ c.typeId.text))
  else c.name

def clusterNode (container : NodeId) (key : ClusterKey) (t : Option ResourceType) (c : Cluster) :
    Node where
  id := ⟨key.text⟩
  parentId := some container
  kind := .cluster key c.typeId (t.map ResourceType.category)
  name := Text.escapeHtml (clusterName t c)
  description := none
  tooltip := if c.members < c.clusterSize then
    some (partialTooltip c.members c.clusterSize (clusterName t c)) else none
  isFolder := !c.children.isEmpty
  locked := false

/-- The node of the folder for all clusters of one type below `container`. -/
def typeFolderNode (container : NodeId) (t : ResourceType) : Node where
  id := ⟨container.text ++ ":rt" ++ t.id.text⟩
  parentId := some container
  kind := .autoGroup t.id container (some t.category) none
  name := Text.plural t.name
  description := t.description
  tooltip := none
  isFolder := true
  locked := false

def autoGroup (container : NodeId) (t : ResourceType) (members : List Branch) : Branch :=
  let node := typeFolderNode container t
  ⟨node, Branch.sort (members.map (Branch.under node.id))⟩

/-- The branches of one type: as they are, or in a folder if the type may occur more than once. -/
def autoGrouped (container : NodeId) (t : Option ResourceType) (members : List Branch) :
    List Branch :=
  match t with
  | some t => if t.singleton then members else [autoGroup container t members]
  | none => members

theorem length_unvisited_lt {catalog : Catalog} {visited : List SubCategoryId}
    {id : SubCategoryId} {s : SubCategory} (hnew : id ∉ visited)
    (hknown : catalog.subCategory? id = some s) :
    (catalog.subCategories.filter fun s => s.id ∉ id :: visited).length <
      (catalog.subCategories.filter fun s => s.id ∉ visited).length := by
  have hid : s.id = id := Catalog.id_of_subCategory? hknown
  have hunvisited : s ∈ catalog.subCategories.filter fun s => s.id ∉ visited :=
    List.mem_filter.mpr ⟨List.mem_of_find?_eq_some hknown, by simpa [hid] using hnew⟩
  have hsplit : (catalog.subCategories.filter fun s => s.id ∉ id :: visited) =
      (catalog.subCategories.filter fun s => s.id ∉ visited).filter fun s => s.id ≠ id := by
    rw [List.filter_filter]
    refine List.filter_congr fun s _ => ?_
    simp
  rw [hsplit]
  refine Nat.lt_of_le_of_ne (List.length_filter_le _ _) fun heq => ?_
  have hall := List.length_filter_eq_length_iff.mp heq s hunvisited
  simp [hid] at hall

/-- The walk up from `next`. It ends at an id that it has visited or that the catalog does not
know. -/
def climb (catalog : Catalog) (visited : List SubCategoryId) (chain : List SubCategory)
    (next : Option SubCategoryId) : List SubCategory :=
  match next with
  | none => chain
  | some id =>
    if _hvisited : id ∈ visited then chain
    else
      match _hknown : catalog.subCategory? id with
      | none => chain
      | some s => climb catalog (id :: visited) (chain ++ [s]) s.parentId
termination_by (catalog.subCategories.filter fun s => s.id ∉ visited).length
decreasing_by exact length_unvisited_lt _hvisited _hknown

section Climb

variable {catalog : Catalog} {visited : List SubCategoryId} {chain : List SubCategory}
  {id : SubCategoryId}

theorem climb_none : climb catalog visited chain none = chain := by
  rw [climb]

theorem climb_of_visited (h : id ∈ visited) :
    climb catalog visited chain (some id) = chain := by
  rw [climb, dif_pos h]

theorem climb_of_unknown (h : catalog.subCategory? id = none) :
    climb catalog visited chain (some id) = chain := by
  rw [climb]
  split
  · rfl
  · split
    · rfl
    · simp_all

theorem climb_of_known {s : SubCategory} (hnew : id ∉ visited)
    (hknown : catalog.subCategory? id = some s) :
    climb catalog visited chain (some id) =
      climb catalog (id :: visited) (chain ++ [s]) s.parentId := by
  rw [climb, dif_neg hnew]
  split
  · simp_all
  · rename_i first hfirst
    obtain rfl : s = first := Option.some.inj (hknown.symm.trans hfirst)
    rfl

end Climb

/-- The chain of sub-categories of a type, outermost first. -/
def subCategoryPath (catalog : Catalog) (t : Option ResourceType) : List SubCategory :=
  match t.bind ResourceType.subCategoryId with
  | none => []
  | some id => (climb catalog [] [] (some id)).reverse

/-- What lies directly below a node: loose branches, and the folders of sub-categories. -/
structure Siblings where
  direct : List Branch
  categories : List CategoryFolder

namespace Siblings

/-- Puts the branches of one type where they belong. -/
def add (catalog : Catalog) (container : NodeId) (s : Siblings)
    (typed : TypeId × List Branch) : Siblings :=
  let t := catalog.type? typed.1
  let branches := autoGrouped container t typed.2
  match subCategoryPath catalog t with
  | [] => { s with direct := s.direct ++ branches }
  | path => { s with categories := CategoryFolder.file container path branches s.categories }

def branches (s : Siblings) : List Branch :=
  Branch.sort (s.direct ++ s.categories.map CategoryFolder.toBranch)

end Siblings

/-- Arranges the clusters below a node, each given with its type. -/
def branchesBelow (catalog : Catalog) (container : NodeId) (clusters : List (TypeId × Branch)) :
    List Branch :=
  let byType := (groupByKey (·.1) clusters).map fun typed => (typed.1, typed.2.map (·.2))
  (byType.foldl (Siblings.add catalog container) ⟨[], []⟩).branches

/-- A cluster with everything below it. -/
def clusterSubtree (catalog : Catalog) (container : NodeId) (parentKey : ClusterKey) :
    Cluster → Branch
  | ⟨typeId, resourceKey, name, members, clusterSize, children⟩ =>
    let key := parentKey.child typeId resourceKey
    let node := clusterNode container key (catalog.type? typeId)
      ⟨typeId, resourceKey, name, members, clusterSize, children⟩
    ⟨node, branchesBelow catalog node.id
      ((children.map Cluster.typeId).zip (children.map (clusterSubtree catalog node.id key)))⟩

def groupNode (catalog : Catalog) (g : ResourceGroup) (clusters : List Cluster) : Node where
  id := ⟨(ClusterKey.root g.id).text⟩
  parentId := none
  kind := .group g.id g.category g.typeId
    ((g.typeId.bind catalog.type?).map ResourceType.category)
  name := Text.escapeHtml g.name
  description := g.description.map Text.escapeHtml
  tooltip := none
  isFolder := !clusters.isEmpty
  locked := false

def groupSubtree (catalog : Catalog) (g : ResourceGroup) (clusters : List Cluster) : Branch :=
  let node := groupNode catalog g clusters
  let key := ClusterKey.root g.id
  ⟨node, branchesBelow catalog node.id
    (clusters.map fun c => (c.typeId, clusterSubtree catalog node.id key c))⟩

/-- The tree of a group: its node, then everything below. -/
def clusterTree (catalog : Catalog) (g : ResourceGroup) (clusters : List Cluster) : List Node :=
  (groupSubtree catalog g clusters).nodes

end FleetConsole.Tree
