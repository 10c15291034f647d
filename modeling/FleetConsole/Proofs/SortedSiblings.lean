import FleetConsole.Proofs.ClusterForest

/-! How siblings in the tree of a group are ordered. They are sorted wherever they are put together:
below a node, in the folder of a type and in that of a sub-category. No folder is made for nothing,
and sorting keeps the order of what is sorted by one key, so of two clusters in one list that are of
one type and have one key the first stays first. -/
namespace FleetConsole.Tree

open scoped List

/-- Folders that stand for no entity come first, then entities with something below them. -/
def Node.siblingRank (n : Node) : Nat :=
  if !n.isFolder then 2 else if n.kind.isSynthetic then 0 else 1

/-- What siblings are sorted by: their ranks, then their names whatever the case. -/
def Node.sortKey (n : Node) : Lex (Nat × String) := toLex (n.siblingRank, Text.lower n.name)

namespace Branch

theorem precedes_iff {a b : Branch} :
    a.precedes b = true ↔ a.node.sortKey ≤ b.node.sortKey := by
  rw [Node.sortKey, Node.sortKey, Prod.Lex.toLex_le_toLex]
  simp only [precedes, Bool.or_eq_true, Bool.and_eq_true, decide_eq_true_iff, beq_iff_eq]
  rfl

theorem precedes_trans (a b c : Branch) (hab : a.precedes b = true) (hbc : b.precedes c = true) :
    a.precedes c = true :=
  precedes_iff.mpr ((precedes_iff.mp hab).trans (precedes_iff.mp hbc))

theorem precedes_total (a b : Branch) : (a.precedes b || b.precedes a) = true := by
  rw [Bool.or_eq_true, precedes_iff, precedes_iff]
  exact le_total _ _

theorem pairwise_sort (branches : List Branch) :
    (sort branches).Pairwise fun a b => a.node.sortKey ≤ b.node.sortKey :=
  (List.pairwise_mergeSort precedes_trans precedes_total branches).imp precedes_iff.mp

/-- Sorting is stable. -/
theorem pair_sublist_sort {x y : Branch} (hle : x.node.sortKey ≤ y.node.sortKey)
    {branches : List Branch} (h : [x, y] <+ branches) : [x, y] <+ sort branches :=
  List.pair_sublist_mergeSort precedes_trans precedes_total (precedes_iff.mpr hle) h

theorem sort_eq_nil {branches : List Branch} : sort branches = [] ↔ branches = [] := by
  rw [← List.length_eq_zero_iff, (perm_sort branches).length_eq, List.length_eq_zero_iff]

/-- Throughout the branch siblings are sorted, and the nodes with something below them are marked as
folders. -/
inductive Ordered : Branch → Prop
  | intro {b : Branch} (filled : b.node.isFolder = true ↔ b.children ≠ [])
      (sorted : b.children.Pairwise fun a b => a.node.sortKey ≤ b.node.sortKey)
      (below : ∀ c ∈ b.children, Ordered c) : Ordered b

theorem Ordered.of_sort {node : Node} {branches : List Branch}
    (hfilled : node.isFolder = true ↔ branches ≠ []) (h : ∀ b ∈ branches, b.Ordered) :
    Ordered ⟨node, sort branches⟩ := by
  refine .intro ?_ (pairwise_sort branches) fun c hc => h c ((perm_sort branches).mem_iff.mp hc)
  rwa [ne_eq, sort_eq_nil]

/-- The branches are siblings in this order, among the given ones or somewhere below them. -/
inductive Beside (x y : Branch) : List Branch → Prop
  | here {branches : List Branch} (h : [x, y] <+ branches) : Beside x y branches
  | inside {branches : List Branch} {b : Branch} (hb : b ∈ branches)
      (h : Beside x y b.children) : Beside x y branches

namespace Beside

variable {x y : Branch} {branches : List Branch}

theorem sublist {more : List Branch} (h : Beside x y branches) (hsub : branches <+ more) :
    Beside x y more := by
  cases h with
  | here h => exact .here (h.trans hsub)
  | inside hb h => exact .inside (hsub.mem hb) h

theorem sort (hle : x.node.sortKey ≤ y.node.sortKey) (h : Beside x y branches) :
    Beside x y (Branch.sort branches) := by
  cases h with
  | here h => exact .here (pair_sublist_sort hle h)
  | inside hb h => exact .inside ((perm_sort branches).mem_iff.mpr hb) h

/-- What is below a branch of the front is below the branches themselves. -/
theorem of_mem_front {p : NodeKind → Bool} {b : Branch} (h : Beside x y b.children)
    (hb : b ∈ branches.flatMap (front p)) : Beside x y branches := by
  obtain ⟨a, ha, hb⟩ := List.mem_flatMap.mp hb
  refine .inside ha ?_
  clear ha
  induction a using Branch.induct with
  | step node children ih =>
    by_cases hp : p node.kind = true
    · rw [front_of_pos hp] at hb
      obtain ⟨c, hc, hb⟩ := List.mem_flatMap.mp hb
      exact .inside hc (ih c hc hb)
    · rw [front_of_neg (Bool.eq_false_iff.mpr hp), List.mem_singleton] at hb
      rwa [← hb]

/-- Laid out, siblings name one parent and keep their order. -/
theorem flatten (h : Beside x y branches) (parent : Option NodeId) :
    ∃ above, [{ x.node with parentId := above }, { y.node with parentId := above }] <+
      branches.flatMap (Branch.flatten parent) := by
  induction h generalizing parent with
  | here h =>
    refine ⟨parent, .trans ?_ (h.flatMap (Branch.flatten parent))⟩
    rw [List.flatMap_cons, List.flatMap_singleton, flatten_eq parent x, flatten_eq parent y]
    exact (List.sublist_append_of_sublist_right
      ((List.nil_sublist _).cons_cons _)).cons_cons _
  | @inside branches b hb _ ih =>
    obtain ⟨above, habove⟩ := ih (some b.node.id)
    refine ⟨above, habove.trans (.trans (List.sublist_cons_self
      { b.node with parentId := parent } _) ?_)⟩
    rw [← flatten_eq]
    exact List.sublist_flatten_of_mem (List.mem_map_of_mem hb)

end Beside

end Branch

namespace Folder

/-- Something is filed in the folder, and in every one nested in it. -/
inductive Filled : Folder → Prop
  | intro {f : Folder} (filed : f.contents ≠ []) (nested : ∀ g ∈ f.nested, Filled g) : Filled f

/-- The branches are siblings in this order, in the folder or in one nested in it. -/
inductive Holds (x y : Branch) : Folder → Prop
  | member {f : Folder} (h : Branch.Beside x y f.members) : Holds x y f
  | nested {f g : Folder} (hg : g ∈ f.nested) (h : Holds x y g) : Holds x y f

section File

variable {branches : List Branch}

theorem forall_mem_upsert {P : Folder → Prop} {sub : SubCategory} {change : Folder → Folder}
    (hnew : P (change ⟨sub, [], []⟩)) (hchange : ∀ f, P f → P (change f)) {folders : List Folder}
    (h : ∀ f ∈ folders, P f) : ∀ f ∈ upsert sub change folders, P f := by
  induction folders with
  | nil => simpa [upsert] using hnew
  | cons f rest ih =>
    obtain ⟨hf, hrest⟩ := List.forall_mem_cons.mp h
    rw [upsert]
    split
    · exact List.forall_mem_cons.mpr ⟨hchange f hf, hrest⟩
    · exact List.forall_mem_cons.mpr ⟨hf, ih hrest⟩

theorem exists_mem_upsert {P : Folder → Prop} {sub : SubCategory} {change : Folder → Folder}
    (hchange : ∀ f, P f → P (change f)) {folders : List Folder} (h : ∃ f ∈ folders, P f) :
    ∃ f ∈ upsert sub change folders, P f := by
  induction folders with
  | nil => simp at h
  | cons f rest ih =>
    obtain ⟨g, hg, hP⟩ := h
    rw [upsert]
    rcases List.mem_cons.mp hg with rfl | hrest
    · split
      · exact ⟨_, List.mem_cons_self, hchange g hP⟩
      · exact ⟨g, List.mem_cons_self, hP⟩
    · split
      · exact ⟨g, List.mem_cons_of_mem _ hrest, hP⟩
      · obtain ⟨k, hk, hP⟩ := ih ⟨g, hrest, hP⟩
        exact ⟨k, List.mem_cons_of_mem _ hk, hP⟩

theorem exists_changed_mem_upsert (sub : SubCategory) (change : Folder → Folder)
    (folders : List Folder) : ∃ f, change f ∈ upsert sub change folders := by
  induction folders with
  | nil => exact ⟨_, List.mem_singleton_self _⟩
  | cons f rest ih =>
    rw [upsert]
    split
    · exact ⟨f, List.mem_cons_self⟩
    · obtain ⟨g, hg⟩ := ih
      exact ⟨g, List.mem_cons_of_mem _ hg⟩

theorem Filled.of_nested {f : Folder} (h : f.Filled) : ∀ g ∈ f.nested, g.Filled := by
  cases h with
  | intro _ nested => exact nested

theorem filled_file {path : List SubCategory} (hbranches : branches ≠ [])
    {folders : List Folder} (h : ∀ f ∈ folders, f.Filled) :
    ∀ f ∈ file path branches folders, f.Filled := by
  induction path generalizing folders with
  | nil => exact h
  | cons sub inner ih =>
    cases inner with
    | nil =>
      have hchange (f : Folder) (hf : ∀ g ∈ f.nested, g.Filled) :
          Filled { f with members := f.members ++ branches } := by
        refine .intro (fun hnil => hbranches ?_) hf
        rw [contents_eq, List.append_assoc] at hnil
        exact (List.append_eq_nil_iff.mp (List.append_eq_nil_iff.mp hnil).2).1
      exact forall_mem_upsert (hchange _ (by simp)) (fun f hf => hchange f hf.of_nested) h
    | cons next rest =>
      have hchange (f : Folder) (hf : ∀ g ∈ f.nested, g.Filled) :
          Filled { f with nested := file (next :: rest) branches f.nested } := by
        refine .intro (fun hnil => hbranches ?_) (ih hf)
        have hperm : ((file (next :: rest) branches f.nested).flatMap contents).Perm
            (f.nested.flatMap contents ++ branches) := perm_file (List.cons_ne_nil _ _) f.nested
        rw [contents_eq] at hnil
        rw [(List.append_eq_nil_iff.mp hnil).2] at hperm
        exact (List.append_eq_nil_iff.mp hperm.nil_eq.symm).2
      exact forall_mem_upsert (hchange _ (by simp)) (fun f hf => hchange f hf.of_nested) h

variable {x y : Branch}

theorem holds_file_of_mem {path : List SubCategory} {folders : List Folder}
    (h : ∃ f ∈ folders, f.Holds x y) : ∃ f ∈ file path branches folders, f.Holds x y := by
  induction path generalizing folders with
  | nil => exact h
  | cons sub inner ih =>
    cases inner with
    | nil =>
      refine exists_mem_upsert (fun f hf => ?_) h
      cases hf with
      | member h => exact .member (h.sublist (List.sublist_append_left _ _))
      | nested hg h => exact .nested hg h
    | cons next rest =>
      refine exists_mem_upsert (fun f hf => ?_) h
      cases hf with
      | member h => exact .member h
      | nested hg h =>
        obtain ⟨k, hk, h⟩ := ih ⟨_, hg, h⟩
        exact .nested hk h

theorem holds_file {path : List SubCategory} (hpath : path ≠ [])
    (h : Branch.Beside x y branches) (folders : List Folder) :
    ∃ f ∈ file path branches folders, f.Holds x y := by
  induction path generalizing folders with
  | nil => exact absurd rfl hpath
  | cons sub inner ih =>
    cases inner with
    | nil =>
      obtain ⟨f, hf⟩ := exists_changed_mem_upsert sub
        (fun f => { f with members := f.members ++ branches }) folders
      exact ⟨_, hf, .member (h.sublist (List.sublist_append_right _ _))⟩
    | cons next rest =>
      obtain ⟨f, hf⟩ := exists_changed_mem_upsert sub
        (fun f => { f with nested := file (next :: rest) branches f.nested }) folders
      obtain ⟨k, hk, h⟩ := ih (List.cons_ne_nil _ _) f.nested
      exact ⟨_, hf, .nested hk h⟩

end File

theorem Holds.beside {x y : Branch} (hle : x.node.sortKey ≤ y.node.sortKey) {f : Folder}
    (h : f.Holds x y) (container : NodeId) :
    Branch.Beside x y (f.toBranch container).children := by
  induction h generalizing container with
  | member h =>
    rw [toBranch_eq]
    exact (h.sublist (List.sublist_append_right _ _)).sort hle
  | @nested f g hg _ ih =>
    rw [toBranch_eq]
    have hbranch :=
      List.mem_map_of_mem (f := toBranch (categoryFolderNode container f.subCategory).id) hg
    exact Branch.Beside.sort hle (.inside (List.mem_append_left _ hbranch) (ih _))

theorem Filled.ordered {f : Folder} (hf : f.Filled) (h : ∀ b ∈ f.contents, b.Ordered)
    (container : NodeId) : (f.toBranch container).Ordered := by
  induction hf generalizing container with
  | @intro f filed _ ih =>
    rw [contents_eq] at h filed
    obtain ⟨hmembers, hnested⟩ := List.forall_mem_append.mp h
    rw [toBranch_eq]
    refine .of_sort ⟨fun _ hnil => filed ?_, fun _ => rfl⟩
      (List.forall_mem_append.mpr ⟨?_, hmembers⟩)
    · obtain ⟨hno, hnone⟩ := List.append_eq_nil_iff.mp hnil
      rw [hnone, List.map_eq_nil_iff.mp hno]
      rfl
    · intro b hb
      obtain ⟨g, hg, rfl⟩ := List.mem_map.mp hb
      exact ih g hg (fun b hb => hnested b (List.mem_flatMap.mpr ⟨g, hg, hb⟩)) _

end Folder

section Shelf

variable {catalog : Catalog} {container : NodeId}

theorem typedBranches_ne_nil {members : List Branch} (h : members ≠ [])
    (t : Option ResourceType) : typedBranches container t members ≠ [] := by
  unfold typedBranches
  split
  · split
    · exact h
    · simp
  · exact h

theorem beside_typedBranches {x y : Branch} (hle : x.node.sortKey ≤ y.node.sortKey)
    {members : List Branch} (h : [x, y] <+ members) (t : Option ResourceType) :
    Branch.Beside x y (typedBranches container t members) := by
  unfold typedBranches
  split
  · split
    · exact .here h
    · exact .inside (List.mem_singleton_self _) (Branch.Beside.sort hle (.here h))
  · exact .here h

namespace Shelf

/-- The branches are siblings in this order, loose or in a folder. -/
def Holds (s : Shelf) (x y : Branch) : Prop :=
  Branch.Beside x y s.loose ∨ ∃ f ∈ s.folders, f.Holds x y

theorem filled_add {s : Shelf} (h : ∀ f ∈ s.folders, f.Filled) {typed : TypeId × List Branch}
    (htyped : typed.2 ≠ []) : ∀ f ∈ (s.add catalog container typed).folders, f.Filled := by
  rw [add]
  split
  · exact h
  · exact Folder.filled_file (typedBranches_ne_nil htyped _) h

theorem Holds.add {s : Shelf} {x y : Branch} (h : s.Holds x y) (typed : TypeId × List Branch) :
    (s.add catalog container typed).Holds x y := by
  rw [Shelf.add]
  split
  · exact h.imp_left fun h => h.sublist (List.sublist_append_left _ _)
  · exact h.imp_right Folder.holds_file_of_mem

theorem holds_add {x y : Branch} (hle : x.node.sortKey ≤ y.node.sortKey)
    {typed : TypeId × List Branch} (h : [x, y] <+ typed.2) (s : Shelf) :
    (s.add catalog container typed).Holds x y := by
  have hbeside : Branch.Beside x y
      (typedBranches container (catalog.type? typed.1) typed.2) := beside_typedBranches hle h _
  rw [Shelf.add]
  split
  · exact .inl (hbeside.sublist (List.sublist_append_right _ _))
  · rename_i path hpath
    exact .inr (Folder.holds_file hpath hbeside s.folders)

end Shelf

end Shelf

section ByType

variable {clusters : List (TypeId × Branch)}

theorem ne_nil_of_mem_byType {typed : TypeId × List Branch} (h : typed ∈ byType clusters) :
    typed.2 ≠ [] := by
  obtain ⟨g, hg, rfl⟩ := List.mem_map.mp h
  intro hnil
  have hhead := map_head?_of_mem_groupByKey _ hg
  rw [List.map_eq_nil_iff.mp hnil] at hhead
  cases hhead

theorem exists_pair_sublist_byType {t : TypeId} {x y : Branch} (h : [(t, x), (t, y)] <+ clusters) :
    ∃ typed ∈ byType clusters, [x, y] <+ typed.2 := by
  obtain ⟨typed, htyped, hid, -⟩ := exists_mem_byType (h.mem List.mem_cons_self)
  refine ⟨typed, htyped, ?_⟩
  obtain ⟨g, hg, rfl⟩ := List.mem_map.mp htyped
  have hgroup := h.filter (·.1 = g.1)
  rw [← members_of_mem_groupByKey _ hg, List.filter_eq_self.mpr (by simp_all)] at hgroup
  exact hgroup.map (·.2)

end ByType

section Arrange

variable (catalog : Catalog) (container : NodeId) (clusters : List (TypeId × Branch))

theorem filled_shelf : ∀ f ∈ (shelf catalog container clusters).folders, f.Filled := by
  have hfold (s : Shelf) (h : ∀ f ∈ s.folders, f.Filled) (groups : List (TypeId × List Branch))
      (hgroups : ∀ g ∈ groups, g.2 ≠ []) :
      ∀ f ∈ (groups.foldl (Shelf.add catalog container) s).folders, f.Filled := by
    induction groups generalizing s with
    | nil => exact h
    | cons first rest ih =>
      obtain ⟨hfirst, hrest⟩ := List.forall_mem_cons.mp hgroups
      exact ih _ (Shelf.filled_add h hfirst) hrest
  exact hfold ⟨[], []⟩ (by simp) _ fun _ => ne_nil_of_mem_byType

variable {clusters} in
theorem holds_shelf {x y : Branch} (hle : x.node.sortKey ≤ y.node.sortKey)
    {typed : TypeId × List Branch} (htyped : typed ∈ byType clusters) (h : [x, y] <+ typed.2) :
    (shelf catalog container clusters).Holds x y := by
  have hkeep (s : Shelf) (hs : s.Holds x y) (groups : List (TypeId × List Branch)) :
      (groups.foldl (Shelf.add catalog container) s).Holds x y := by
    induction groups generalizing s with
    | nil => exact hs
    | cons first rest ih => exact ih _ (hs.add first)
  obtain ⟨before, after, hsplit⟩ := List.append_of_mem htyped
  rw [shelf, hsplit, List.foldl_append, List.foldl_cons]
  exact hkeep _ (Shelf.holds_add hle h _) after

theorem beside_arrangeBelow {t : TypeId} {x y : Branch} (hle : x.node.sortKey ≤ y.node.sortKey)
    (h : [(t, x), (t, y)] <+ clusters) :
    Branch.Beside x y (arrangeBelow catalog container clusters) := by
  obtain ⟨typed, htyped, hpair⟩ := exists_pair_sublist_byType h
  rw [arrangeBelow_eq]
  apply Branch.Beside.sort hle
  rcases holds_shelf catalog container hle htyped hpair with hloose | ⟨f, hf, hfolder⟩
  · exact hloose.sublist (List.sublist_append_left _ _)
  · exact .inside (List.mem_append_right _ (List.mem_map_of_mem hf)) (hfolder.beside hle container)

theorem arrangeBelow_eq_nil : arrangeBelow catalog container clusters = [] ↔ clusters = [] := by
  constructor
  · intro hnil
    by_contra hclusters
    obtain ⟨c, hc⟩ := List.exists_mem_of_ne_nil _ hclusters
    obtain ⟨typed, htyped, -⟩ := exists_mem_byType hc
    rw [arrangeBelow_eq, Branch.sort_eq_nil, List.append_eq_nil_iff, List.map_eq_nil_iff] at hnil
    have hperm := perm_shelf catalog container clusters
    rw [hnil.1, hnil.2] at hperm
    have hfiled : filed catalog container clusters = [] := hperm.nil_eq.symm
    exact typedBranches_ne_nil (ne_nil_of_mem_byType htyped) _
      (List.flatMap_eq_nil_iff.mp hfiled typed htyped)
  · rintro rfl
    rw [arrangeBelow_eq, Branch.sort_eq_nil]
    rfl

theorem ordered_arrangeBelow (h : ∀ c ∈ clusters, c.2.Ordered) :
    ∀ b ∈ arrangeBelow catalog container clusters, b.Ordered := by
  have hfiled : ∀ b ∈ filed catalog container clusters, b.Ordered := by
    intro b hb
    obtain ⟨typed, htyped, ⟨hmember, -⟩ | ⟨t, -, -, rfl⟩⟩ := mem_filed.mp hb
    · exact h _ (mem_of_mem_byType htyped hmember)
    · exact .of_sort ⟨fun _ => ne_nil_of_mem_byType htyped, fun _ => rfl⟩
        fun b hb => h _ (mem_of_mem_byType htyped hb)
  have hshelf := perm_shelf catalog container clusters
  intro b hb
  rw [arrangeBelow_eq, (Branch.perm_sort _).mem_iff, List.mem_append, List.mem_map] at hb
  rcases hb with hloose | ⟨f, hf, rfl⟩
  · exact hfiled b (hshelf.mem_iff.mp (List.mem_append_left _ hloose))
  · have hfilled := filled_shelf catalog container clusters f hf
    refine hfilled.ordered (fun b hb => hfiled b ?_) container
    exact hshelf.mem_iff.mp (List.mem_append_right _ (List.mem_flatMap.mpr ⟨f, hf, hb⟩))

end Arrange

section Clusters

variable {catalog : Catalog}

theorem below_eq_nil {key : ClusterKey} {clusters : List Cluster} :
    below catalog key clusters = [] ↔ clusters = [] := by
  rw [below, arrangeBelow_eq_nil, branchesOf, List.map_eq_nil_iff]

theorem ordered_of_below {b : Branch} {key : ClusterKey} {clusters : List Cluster}
    (hfolder : b.node.isFolder = !clusters.isEmpty)
    (hchildren : b.children = below catalog key clusters)
    (h : ∀ c ∈ below catalog key clusters, c.Ordered) : b.Ordered := by
  rw [← hchildren] at h
  refine .intro ?_ ?_ h
  · rw [hfolder, hchildren, ne_eq, below_eq_nil]
    simp
  · rw [hchildren]
    exact Branch.pairwise_sort _

theorem ordered_below {key : ClusterKey} {clusters : List Cluster} :
    ∀ b ∈ below catalog key clusters, b.Ordered := by
  induction clusters using Cluster.induct generalizing key with
  | step clusters ih =>
    refine ordered_arrangeBelow _ _ _ fun typed htyped => ?_
    obtain ⟨c, hc, rfl⟩ := List.mem_map.mp htyped
    refine ordered_of_below ?_ (branchOf_children catalog key c) (ih c hc)
    rw [branchOf_node]
    rfl

theorem ordered_groupBranch (g : ResourceGroup) (clusters : List Cluster) :
    (groupBranch catalog g clusters).Ordered :=
  ordered_of_below rfl rfl ordered_below

/-- Wherever in the tree two clusters of one type are in one list, the first stays first, unless its
key is greater. -/
theorem beside_of_descend {key : ClusterKey} {clusters : List Cluster} {a : List Nat}
    {k : ClusterKey} {cs : List Cluster} (ha : descend key clusters a = some (k, cs))
    {c d : Cluster} (h : [c, d] <+ cs) (htype : c.typeId = d.typeId)
    (hle : (branchOf catalog k c).node.sortKey ≤ (branchOf catalog k d).node.sortKey) :
    Branch.Beside (branchOf catalog k c) (branchOf catalog k d) (below catalog key clusters) := by
  induction a generalizing key clusters with
  | nil =>
    obtain ⟨rfl, rfl⟩ := Prod.mk.inj (Option.some.inj ha)
    have hpair := h.map fun c => (c.typeId, branchOf catalog key c)
    rw [List.map_cons, List.map_singleton, htype] at hpair
    exact beside_arrangeBelow _ _ _ hle hpair
  | cons i a ih =>
    rw [descend] at ha
    obtain ⟨e, he, ha⟩ := Option.bind_eq_some_iff.mp ha
    have hbeside := ih ha
    rw [← branchOf_children] at hbeside
    refine hbeside.of_mem_front (p := NodeKind.isSynthetic) ?_
    rw [below, (perm_front_arrangeBelow _ _ _ fun _ _ => rfl).mem_iff, perm_front_filed.mem_iff]
    exact List.mem_map_of_mem (List.mem_of_getElem? he)

end Clusters

end FleetConsole.Tree
