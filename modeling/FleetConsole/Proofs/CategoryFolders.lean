import FleetConsole.Proofs.ClusterKeyText

/-! The folders of sub-categories in the tree of a group. Below each node there is one for every
chain of sub-categories that a type leads through, but their ids have the names of the chain only:
folders of one node whose chains are named alike share an id, and no others do. -/
namespace FleetConsole.Tree

namespace Folder

/-- The sub-categories on the way to a folder and to those nested in it, each split into the
outermost and the others. -/
def chains : Folder → List (SubCategory × List SubCategory)
  | ⟨sub, nested, _⟩ =>
    (sub, []) :: ((nested.map chains).flatten).map fun c => (sub, c.1 :: c.2)

theorem chains_eq (f : Folder) : f.chains = (f.subCategory, []) ::
    (f.nested.flatMap chains).map fun c => (f.subCategory, c.1 :: c.2) := by
  obtain ⟨sub, nested, members⟩ := f
  rw [chains, List.flatMap_def]

theorem mem_chains_iff {f : Folder} {c : SubCategory × List SubCategory} :
    c ∈ f.chains ↔ c.1 = f.subCategory ∧
      (c.2 = [] ∨ ∃ d ∈ f.nested.flatMap chains, c.2 = d.1 :: d.2) := by
  obtain ⟨first, rest⟩ := c
  rw [chains_eq, List.mem_cons, List.mem_map]
  simp only [Prod.mk.injEq]
  constructor
  · rintro (⟨rfl, rfl⟩ | ⟨d, hd, rfl, rfl⟩)
    · exact ⟨rfl, .inl rfl⟩
    · exact ⟨rfl, .inr ⟨d, hd, rfl⟩⟩
  · rintro ⟨rfl, rfl | ⟨d, hd, rfl⟩⟩
    · exact .inl ⟨rfl, rfl⟩
    · exact .inr ⟨d, hd, rfl, rfl⟩

/-- The node of the folder at the inner end of a chain inside `container`. -/
def nodeAt (container : NodeId) (sub : SubCategory) : List SubCategory → Node
  | [] => categoryFolderNode container sub
  | next :: rest => nodeAt (categoryFolderNode container sub).id next rest

theorem categories_eq_map_chains (container : NodeId) (f : Folder) :
    f.categories container = f.chains.map fun c => nodeAt container c.1 c.2 := by
  induction f using Folder.induct generalizing container with
  | step sub nested members ih =>
    have hnested : nested.flatMap (categories (categoryFolderNode container sub).id) =
        (nested.flatMap chains).map fun c => nodeAt container sub (c.1 :: c.2) := by
      rw [List.map_flatMap]
      exact List.flatMap_congr fun f hf => ih f hf _
    rw [categories_eq, chains_eq, hnested, List.map_cons, List.map_map]
    rfl

section File

variable {catalog : Catalog} {branches : List Branch}

theorem mem_chains_upsert {sub : SubCategory} {change : Folder → Folder} {Q : Prop}
    {c : SubCategory × List SubCategory} (hQ : c = (sub, []) → Q)
    (hchange : ∀ f, f.subCategory = sub → Tidy catalog f.nested →
      (c ∈ (change f).chains ↔ c ∈ f.chains ∨ Q))
    (hsub : catalog.subCategory? sub.id = some sub) {folders : List Folder}
    (h : Tidy catalog folders) :
    c ∈ (upsert sub change folders).flatMap chains ↔ c ∈ folders.flatMap chains ∨ Q := by
  induction folders with
  | nil =>
    have hnew := hchange ⟨sub, [], []⟩ rfl .nil
    rw [upsert, List.flatMap_singleton, hnew, chains_eq]
    simpa using hQ
  | cons f rest ih =>
    obtain ⟨hf, -, hnested, hrest⟩ := tidy_cons.mp h
    rw [upsert]
    split
    · rename_i hid
      have hsame : f.subCategory = sub := Option.some.inj (hf.symm.trans (hid ▸ hsub))
      rw [List.flatMap_cons, List.flatMap_cons, List.mem_append, List.mem_append,
        hchange f hsame hnested]
      tauto
    · rw [List.flatMap_cons, List.flatMap_cons, List.mem_append, List.mem_append, ih hrest,
        or_assoc]

/-- Filing below a chain makes the folders on it, and no others. -/
theorem mem_chains_file {path : List SubCategory} (hne : path ≠ [])
    (hpath : ∀ sub ∈ path, catalog.subCategory? sub.id = some sub) {folders : List Folder}
    (h : Tidy catalog folders) {c : SubCategory × List SubCategory} :
    c ∈ (file path branches folders).flatMap chains ↔
      c ∈ folders.flatMap chains ∨ c.1 :: c.2 <+: path := by
  induction path generalizing folders c with
  | nil => exact absurd rfl hne
  | cons sub inner ih =>
    rw [List.forall_mem_cons] at hpath
    cases inner with
    | nil =>
      -- At the end of the chain only the members of the folder change.
      rw [file]
      refine mem_chains_upsert (fun hc => ?_) (fun f hf hnested => ?_) hpath.1 h
      · rw [hc]
      · have hchains : Folder.chains { f with members := f.members ++ branches } = f.chains := by
          rw [chains_eq, chains_eq]
        rw [hchains, or_iff_left_of_imp]
        intro hprefix
        obtain ⟨hfirst, hrest⟩ := List.cons_prefix_cons.mp hprefix
        rw [mem_chains_iff, hf]
        exact ⟨hfirst, .inl (List.prefix_nil.mp hrest)⟩
    | cons next rest =>
      rw [file_cons_cons]
      refine mem_chains_upsert (fun hc => ?_) (fun f hf hnested => ?_) hpath.1 h
      · simp [hc]
      · rw [mem_chains_iff, mem_chains_iff, hf, List.cons_prefix_cons, ← and_or_left, or_assoc]
        have hinner := fun d => ih (List.cons_ne_nil _ _) hpath.2 hnested (c := d)
        refine and_congr_right fun _ => ⟨?_, ?_⟩
        · rintro (hnil | ⟨d, hd, hc⟩)
          · exact .inl hnil
          · rw [hc]
            exact .inr (((hinner d).mp hd).imp_left fun hold => ⟨d, hold, rfl⟩)
        · rintro (hnil | ⟨d, hd, hc⟩ | hprefix)
          · exact .inl hnil
          · exact .inr ⟨d, (hinner d).mpr (.inl hd), hc⟩
          · cases hc : c.2 with
            | nil => exact .inl rfl
            | cons first others =>
              exact .inr ⟨(first, others), (hinner _).mpr (.inr (hc ▸ hprefix)), rfl⟩

theorem nodup_chains {folders : List Folder} (h : Tidy catalog folders) :
    (folders.flatMap chains).Nodup := by
  induction h with
  | @intro folders known apart nested ih =>
    rw [List.nodup_flatMap]
    constructor
    · intro f hf
      rw [chains_eq, List.nodup_cons]
      refine ⟨by simp, (ih f hf).map fun c d hcd => ?_⟩
      obtain ⟨-, hcd⟩ := Prod.mk.inj hcd
      obtain ⟨hfirst, hrest⟩ := List.cons.inj hcd
      exact Prod.ext hfirst hrest
    · refine (List.pairwise_map.mp apart).imp fun {f g} hne c hf hg => hne ?_
      rw [← (mem_chains_iff.mp hf).1, (mem_chains_iff.mp hg).1]

end File

end Folder

section Level

variable {catalog : Catalog} {container : NodeId} {clusters : List (TypeId × Branch)}

theorem Shelf.mem_chains_add {s : Shelf} (h : Folder.Tidy catalog s.folders)
    (typed : TypeId × List Branch) {c : SubCategory × List SubCategory} :
    c ∈ (s.add catalog container typed).folders.flatMap Folder.chains ↔
      c ∈ s.folders.flatMap Folder.chains ∨
        c.1 :: c.2 <+: subCategoryPath catalog (catalog.type? typed.1) := by
  rw [Shelf.add]
  split
  · rename_i hnone
    simp [hnone]
  · rename_i path hpath
    refine Folder.mem_chains_file hpath (fun sub hsub => ?_) h
    exact known_of_mem_subCategoryPath hsub

theorem mem_chains_foldl_add {s : Shelf} (h : Folder.Tidy catalog s.folders)
    (typed : List (TypeId × List Branch)) {c : SubCategory × List SubCategory} :
    c ∈ (typed.foldl (Shelf.add catalog container) s).folders.flatMap Folder.chains ↔
      c ∈ s.folders.flatMap Folder.chains ∨
        ∃ t ∈ typed, c.1 :: c.2 <+: subCategoryPath catalog (catalog.type? t.1) := by
  induction typed generalizing s with
  | nil => simp
  | cons first rest ih =>
    rw [List.foldl_cons, ih (Shelf.tidy_add h first), Shelf.mem_chains_add h, or_assoc,
      List.exists_mem_cons_iff]

/-- Below a node are the folders of the chains that its types lead through. -/
theorem mem_chains_shelf {c : SubCategory × List SubCategory} :
    c ∈ (shelf catalog container clusters).folders.flatMap Folder.chains ↔
      ∃ typed ∈ byType clusters,
        c.1 :: c.2 <+: subCategoryPath catalog (catalog.type? typed.1) := by
  rw [shelf, mem_chains_foldl_add .nil]
  simp

theorem exists_of_typed_mem_byType {typed : TypeId × List Branch} (h : typed ∈ byType clusters) :
    ∃ c ∈ clusters, c.1 = typed.1 := by
  obtain ⟨g, hg, rfl⟩ := List.mem_map.mp h
  obtain ⟨c, hc, hkey⟩ := Option.map_eq_some_iff.mp (map_head?_of_mem_groupByKey _ hg)
  refine ⟨c, ?_, hkey⟩
  exact (perm_groupByKey _ clusters).mem_iff.mp
    (List.mem_flatMap.mpr ⟨g, hg, List.mem_of_head? hc⟩)

end Level

/-- The place of a folder: the node that it is below, and the sub-categories on the way to it. -/
structure FolderPlace where
  key : ClusterKey
  outermost : SubCategory
  inner : List SubCategory

namespace FolderPlace

def chain (p : FolderPlace) : List SubCategory := p.outermost :: p.inner

def names (p : FolderPlace) : List String := p.chain.map SubCategory.name

def node (p : FolderPlace) : Node := Folder.nodeAt ⟨p.key.text⟩ p.outermost p.inner

end FolderPlace

section Places

variable (catalog : Catalog)

/-- The places directly below a node. -/
def placesAt (key : ClusterKey) (clusters : List Cluster) : List FolderPlace :=
  ((shelf catalog ⟨key.text⟩ (branchesOf catalog key clusters)).folders.flatMap
    Folder.chains).map fun c => ⟨key, c.1, c.2⟩

/-- The places below a cluster, at any depth. -/
def placesOf (parent : ClusterKey) : Cluster → List FolderPlace
  | ⟨typeId, resourceKey, _, _, _, children⟩ =>
    let key := parent.child typeId resourceKey
    placesAt catalog key children ++ (children.map (placesOf key)).flatten

/-- The places below a node, at any depth. -/
def placesBelow (key : ClusterKey) (clusters : List Cluster) : List FolderPlace :=
  placesAt catalog key clusters ++ clusters.flatMap (placesOf catalog key)

theorem placesOf_eq (parent : ClusterKey) (c : Cluster) :
    placesOf catalog parent c = placesBelow catalog (childKey parent c) c.children := by
  obtain ⟨typeId, resourceKey, name, members, clusterSize, children⟩ := c
  rw [placesOf, placesBelow, List.flatMap_def]
  rfl

variable {catalog} {key : ClusterKey} {clusters : List Cluster} {p : FolderPlace}

theorem mem_placesAt_iff : p ∈ placesAt catalog key clusters ↔
    p.key = key ∧
      ∃ c ∈ clusters, p.chain <+: subCategoryPath catalog (catalog.type? c.typeId) := by
  have hchains : (p.outermost, p.inner) ∈ (shelf catalog ⟨key.text⟩
      (branchesOf catalog key clusters)).folders.flatMap Folder.chains ↔
        ∃ c ∈ clusters, p.chain <+: subCategoryPath catalog (catalog.type? c.typeId) := by
    rw [mem_chains_shelf]
    constructor
    · rintro ⟨typed, htyped, hprefix⟩
      obtain ⟨b, hb, hid⟩ := exists_of_typed_mem_byType htyped
      obtain ⟨c, hc, rfl⟩ := List.mem_map.mp hb
      rw [← hid] at hprefix
      exact ⟨c, hc, hprefix⟩
    · rintro ⟨c, hc, hprefix⟩
      obtain ⟨typed, htyped, hid, -⟩ :=
        exists_mem_byType (List.mem_map_of_mem (f := fun c => (c.typeId, branchOf catalog key c)) hc)
      exact ⟨typed, htyped, hid ▸ hprefix⟩
  rw [← hchains, placesAt, List.mem_map]
  constructor
  · rintro ⟨c, hc, rfl⟩
    exact ⟨rfl, hc⟩
  · rintro ⟨rfl, hc⟩
    exact ⟨_, hc, rfl⟩

/-- A place is below a node of the tree, on the way to the folder of a type that is there. -/
theorem mem_placesBelow_iff : p ∈ placesBelow catalog key clusters ↔
    ∃ a below, descend key clusters a = some (p.key, below) ∧
      ∃ c ∈ below, p.chain <+: subCategoryPath catalog (catalog.type? c.typeId) := by
  induction clusters using Cluster.induct generalizing key with
  | step clusters ih =>
    rw [placesBelow, List.mem_append, List.mem_flatMap, mem_placesAt_iff]
    constructor
    · rintro (⟨rfl, hc⟩ | ⟨c, hc, hp⟩)
      · exact ⟨[], clusters, rfl, hc⟩
      · rw [placesOf_eq, ih c hc] at hp
        obtain ⟨a, below, ha, hbelow⟩ := hp
        obtain ⟨i, hi, rfl⟩ := List.getElem_of_mem hc
        refine ⟨i :: a, below, ?_, hbelow⟩
        rw [descend, List.getElem?_eq_getElem hi]
        exact ha
    · rintro ⟨a, below, ha, hbelow⟩
      cases a with
      | nil =>
        obtain ⟨hkey, rfl⟩ := Prod.mk.inj (Option.some.inj ha)
        exact .inl ⟨hkey.symm, hbelow⟩
      | cons i a =>
        rw [descend] at ha
        obtain ⟨c, hc, ha⟩ := Option.bind_eq_some_iff.mp ha
        have hmem := List.mem_of_getElem? hc
        refine .inr ⟨c, hmem, ?_⟩
        rw [placesOf_eq, ih c hmem]
        exact ⟨a, below, ha, hbelow⟩

/-- What is added to a key on the way down has no colon in its resource keys. -/
theorem exists_path_of_descend (h : Cluster.Unambiguous clusters) {a : List Nat} {k : ClusterKey}
    {below : List Cluster} (ha : descend key clusters a = some (k, below)) :
    ∃ path, k = ⟨key.groupId, key.path ++ path⟩ ∧ ∀ step ∈ path, ':' ∉ step.2.toList := by
  induction a generalizing key clusters with
  | nil =>
    obtain ⟨rfl, -⟩ := Prod.mk.inj (Option.some.inj ha)
    exact ⟨[], by simp, by simp⟩
  | cons i a ih =>
    rw [descend] at ha
    obtain ⟨c, hc, ha⟩ := Option.bind_eq_some_iff.mp ha
    have hmem := List.mem_of_getElem? hc
    cases h with
    | intro apart keys nested =>
      obtain ⟨path, rfl, hpath⟩ := ih (nested c hmem) ha
      refine ⟨(c.typeId, c.resourceKey) :: path, ?_, ?_⟩
      · simp [childKey, ClusterKey.child]
      · exact List.forall_mem_cons.mpr ⟨keys c hmem, hpath⟩

theorem nodup_placesBelow (h : Cluster.Unambiguous clusters) :
    (placesBelow catalog key clusters).Nodup := by
  induction h generalizing key with
  | @intro clusters apart keys nested ih =>
    -- The key of a place goes on from that of the cluster which it is below.
    have hkey {c : Cluster} (hc : c ∈ clusters) {p : FolderPlace}
        (hp : p ∈ placesOf catalog key c) :
        key.path ++ [(c.typeId, c.resourceKey)] <+: p.key.path := by
      rw [placesOf_eq, mem_placesBelow_iff] at hp
      obtain ⟨a, below, ha, -⟩ := hp
      obtain ⟨path, hpath, -⟩ := exists_path_of_descend (nested c hc) ha
      rw [hpath]
      exact List.prefix_append _ _
    rw [placesBelow, List.nodup_append, List.nodup_flatMap]
    refine ⟨?_, ⟨fun c hc => ?_, ?_⟩, ?_⟩
    · refine (Folder.nodup_chains (tidy_shelf _ _ _)).map fun c d hcd => ?_
      obtain ⟨-, hfirst, hrest⟩ := FolderPlace.mk.inj hcd
      exact Prod.ext hfirst hrest
    · rw [placesOf_eq]
      exact ih c hc
    · refine (List.pairwise_map.mp apart).imp_of_mem fun {c d} hc hd hne p hpc hpd => hne ?_
      have hlast := (List.prefix_of_prefix_length_le (hkey hc hpc) (hkey hd hpd) (by simp)).eq_of_length
        (by simp)
      simpa using hlast
    · rintro p hp q hq rfl
      obtain ⟨c, hc, hq⟩ := List.mem_flatMap.mp hq
      have hlength := (hkey hc hq).length_le
      rw [(mem_placesAt_iff.mp hp).1, List.length_append] at hlength
      simp at hlength

variable (catalog key clusters) in
theorem categoriesAt_eq : categoriesAt catalog key clusters =
    (placesAt catalog key clusters).map FolderPlace.node := by
  rw [placesAt, List.map_map, List.map_flatMap]
  exact List.flatMap_congr fun f _ => Folder.categories_eq_map_chains _ f

theorem isCategory_nodeAt (container : NodeId) (sub : SubCategory) (inner : List SubCategory) :
    (Folder.nodeAt container sub inner).kind.isCategory = true := by
  induction inner generalizing container sub with
  | nil => rfl
  | cons next rest ih => exact ih _ _

variable (catalog key clusters) in
theorem filter_categoriesAt :
    (categoriesAt catalog key clusters).filter (fun n => n.kind.isCategory) =
      (placesAt catalog key clusters).map FolderPlace.node := by
  rw [categoriesAt_eq, List.filter_eq_self]
  intro n hn
  obtain ⟨p, -, rfl⟩ := List.mem_map.mp hn
  exact isCategory_nodeAt _ _ _

theorem filter_typeFolders (container : NodeId) (typed : List (TypeId × List Branch)) :
    (typed.filterMap fun t => typeFolderNode? container (catalog.type? t.1)).filter
      (fun n => n.kind.isCategory) = [] := by
  refine List.filter_eq_nil_iff.mpr fun n hn => ?_
  obtain ⟨t, -, hsome⟩ := List.mem_filterMap.mp hn
  obtain ⟨type, -, -, rfl⟩ := typeFolderNode?_eq_some_iff.mp hsome
  simp [typeFolder, typeFolderNode, NodeKind.isCategory, NodeKind.nodeClass]

variable (catalog key clusters) in
/-- The folders of sub-categories below a node are those at its places. -/
theorem perm_categories_below :
    (((below catalog key clusters).flatMap Branch.nodes).filter fun n => n.kind.isCategory).Perm
      ((placesBelow catalog key clusters).map FolderPlace.node) := by
  induction clusters using Cluster.induct generalizing key with
  | step clusters ih =>
    have hbranch (c : Cluster) (hc : c ∈ clusters) :
        ((branchOf catalog key c).nodes.filter fun n => n.kind.isCategory).Perm
          ((placesOf catalog key c).map FolderPlace.node) := by
      rw [Branch.nodes_eq, branchOf_children, placesOf_eq, List.filter_cons_of_neg (by simp)]
      exact ih c hc _
    have hbranches : ((clusters.flatMap fun c => (branchOf catalog key c).nodes).filter
        fun n => n.kind.isCategory).Perm
          ((clusters.flatMap (placesOf catalog key)).map FolderPlace.node) := by
      rw [List.filter_flatMap, List.map_flatMap]
      exact List.Perm.flatMap_left _ hbranch
    have hperm := (perm_nodes_below catalog key clusters).filter fun n => n.kind.isCategory
    rw [← categoriesAt, List.filter_append, List.filter_append, filter_categoriesAt,
      filter_typeFolders, List.nil_append] at hperm
    rw [placesBelow, List.map_append]
    exact hperm.trans (hbranches.append_left _)

end Places

section Ids

open ClusterKey

/-- What the id of a folder has behind that of the node which it is below. -/
def namesText (names : List String) : List Char :=
  names.flatMap fun name => ':' :: 'c' :: 'a' :: 't' :: name.toList

@[simp] theorem namesText_nil : namesText [] = [] := rfl

@[simp] theorem namesText_cons (name : String) (rest : List String) :
    namesText (name :: rest) = ':' :: 'c' :: 'a' :: 't' :: (name.toList ++ namesText rest) := by
  simp [namesText]

theorem head?_namesText (names : List String) : ∀ ch ∈ (namesText names).head?, ch = ':' := by
  cases names <;> simp

theorem toList_id_nodeAt (container : NodeId) (sub : SubCategory) (inner : List SubCategory) :
    (Folder.nodeAt container sub inner).id.text.toList =
      container.text.toList ++ namesText ((sub :: inner).map SubCategory.name) := by
  induction inner generalizing container sub with
  | nil => simp [Folder.nodeAt, categoryFolderNode]
  | cons next rest ih =>
    rw [Folder.nodeAt, ih]
    simp [categoryFolderNode]

theorem toList_id_node (p : FolderPlace) : p.node.id.text.toList =
    p.key.groupId.text.toList ++ (tail p.key.path ++ namesText p.names) := by
  rw [FolderPlace.node, toList_id_nodeAt, toList_text, List.append_assoc]
  rfl

theorem namesText_inj {names names' : List String} (h : ∀ name ∈ names, ':' ∉ name.toList)
    (h' : ∀ name ∈ names', ':' ∉ name.toList) (heq : namesText names = namesText names') :
    names = names' := by
  induction names generalizing names' with
  | nil =>
    cases names' with
    | nil => rfl
    | cons name' rest' => simp at heq
  | cons name rest ih =>
    cases names' with
    | nil => simp at heq
    | cons name' rest' =>
      rw [List.forall_mem_cons] at h h'
      simp only [namesText_cons, List.cons.injEq, true_and] at heq
      obtain ⟨hname, hrest⟩ :=
        append_colon_inj h.1 h'.1 (head?_namesText _) (head?_namesText _) heq
      rw [String.toList_inj.mp hname, ih h.2 h'.2 hrest]

/-- The id of a type cannot be taken for a name. -/
theorem tail_append_ne_namesText (step : TypeId × String) (path : List (TypeId × String))
    (names rest : List String) : tail (step :: path) ++ namesText rest ≠ namesText names := by
  obtain ⟨ch, hhead, hc, -⟩ := exists_head?_idText step.1.val
  obtain ⟨digits, hdigits⟩ := List.head?_eq_some_iff.mp hhead
  cases names with
  | nil => simp
  | cons name others =>
    rw [tail_cons, TypeId.text, hdigits]
    simp [hc]

theorem path_names_inj {path path' : List (TypeId × String)} {names names' : List String}
    (hpath : ∀ step ∈ path, ':' ∉ step.2.toList) (hpath' : ∀ step ∈ path', ':' ∉ step.2.toList)
    (hnames : ∀ name ∈ names, ':' ∉ name.toList) (hnames' : ∀ name ∈ names', ':' ∉ name.toList)
    (h : tail path ++ namesText names = tail path' ++ namesText names') :
    path = path' ∧ names = names' := by
  have hends (path : List (TypeId × String)) (names : List String) :
      ∀ ch ∈ (tail path ++ namesText names).head?, ch = ':' := by
    cases path with
    | nil => exact head?_namesText names
    | cons step rest => simp
  -- Along both paths, a type id ends at the next colon and so does a resource key; where only one
  -- path goes on, its next type id would stand where the other text has a name.
  induction path generalizing path' with
  | nil =>
    cases path' with
    | nil => exact ⟨rfl, namesText_inj hnames hnames' h⟩
    | cons step' rest' => exact absurd h.symm (tail_append_ne_namesText step' rest' _ _)
  | cons step rest ih =>
    cases path' with
    | nil => exact absurd h (tail_append_ne_namesText step rest _ _)
    | cons step' rest' =>
      obtain ⟨typeId, r⟩ := step
      obtain ⟨typeId', r'⟩ := step'
      rw [List.forall_mem_cons] at hpath hpath'
      simp only [tail_cons, List.cons_append, List.append_assoc, List.cons.injEq, true_and] at h
      obtain ⟨htype, hkeys⟩ := append_colon_inj (notMem_text typeId) (notMem_text typeId')
        (by simp) (by simp) h
      obtain ⟨hkey, hrest⟩ := append_colon_inj hpath.1 hpath'.1 (hends rest names)
        (hends rest' names') (List.cons.inj hkeys).2
      obtain rfl : typeId = typeId' :=
        congrArg TypeId.mk (idText_injective (String.toList_inj.mp htype))
      obtain ⟨rfl, rfl⟩ := ih hpath.2 hpath'.2 hrest
      obtain rfl : r = r' := String.toList_inj.mp hkey
      exact ⟨rfl, rfl⟩

/-- The id of a folder tells the node which it is below and the names on the way to it. -/
theorem id_node_eq_iff {catalog : Catalog} (hnames : ∀ s ∈ catalog.subCategories, ':' ∉ s.name.toList)
    {key : ClusterKey} (hkey : ∀ step ∈ key.path, ':' ∉ step.2.toList) {clusters : List Cluster}
    (h : Cluster.Unambiguous clusters) {p q : FolderPlace}
    (hp : p ∈ placesBelow catalog key clusters) (hq : q ∈ placesBelow catalog key clusters) :
    p.node.id = q.node.id ↔ p.key = q.key ∧ p.names = q.names := by
  have hread {p : FolderPlace} (hp : p ∈ placesBelow catalog key clusters) :
      p.key.groupId = key.groupId ∧ (∀ step ∈ p.key.path, ':' ∉ step.2.toList) ∧
        ∀ name ∈ p.names, ':' ∉ name.toList := by
    obtain ⟨a, below, ha, c, hc, hprefix⟩ := mem_placesBelow_iff.mp hp
    obtain ⟨path, hpath, hcolons⟩ := exists_path_of_descend h ha
    rw [hpath]
    refine ⟨rfl, List.forall_mem_append.mpr ⟨hkey, hcolons⟩, fun name hname => ?_⟩
    obtain ⟨s, hs, rfl⟩ := List.mem_map.mp hname
    have hknown := known_of_mem_subCategoryPath (List.IsPrefix.subset hprefix hs)
    exact hnames s (List.mem_of_find?_eq_some hknown)
  obtain ⟨hgroup, hpath, hpnames⟩ := hread hp
  obtain ⟨hgroup', hpath', hqnames⟩ := hread hq
  have htext : p.node.id = q.node.id ↔ p.node.id.text.toList = q.node.id.text.toList := by
    rw [String.toList_inj]
    exact ⟨congrArg NodeId.text, fun heq => congrArg NodeId.mk heq⟩
  rw [htext, toList_id_node, toList_id_node, hgroup, hgroup', List.append_cancel_left_eq]
  constructor
  · intro heq
    obtain ⟨hpaths, hnames⟩ := path_names_inj hpath hpath' hpnames hqnames heq
    refine ⟨?_, hnames⟩
    rw [ClusterKey.mk.injEq]
    exact ⟨hgroup.trans hgroup'.symm, hpaths⟩
  · rintro ⟨hkeys, hnames⟩
    rw [hkeys, hnames]

end Ids

section Tree

variable (catalog : Catalog) (g : ResourceGroup) (clusters : List Cluster)

theorem perm_categories_clusterTree :
    (((clusterTree catalog g clusters).filter fun n => n.kind.isCategory).map
      fun n => (n.id, n.kind)).Perm
        ((placesBelow catalog (.root g.id) clusters).map fun p => (p.node.id, p.node.kind)) := by
  have hmap := Branch.map_clusterTree (f := fun n => (n.id, n.kind)) (fun _ _ => rfl) catalog g
    clusters
  have hfilter (l : List Node) : (l.filter fun n => n.kind.isCategory).map
      (fun n => (n.id, n.kind)) = (l.map fun n => (n.id, n.kind)).filter
        fun q => q.2.isCategory := by
    rw [List.filter_map]
    rfl
  have hgroup : (groupBranch catalog g clusters).node.kind.isCategory = false := rfl
  rw [hfilter, hmap, ← hfilter, Branch.nodes_eq, groupBranch_children,
    List.filter_cons_of_neg (by simp [hgroup])]
  have hperm := (perm_categories_below catalog (.root g.id) clusters).map
    fun n => (n.id, n.kind)
  rwa [List.map_map] at hperm

variable {catalog g clusters} in
theorem exists_node_of_place {p : FolderPlace}
    (hp : p ∈ placesBelow catalog (.root g.id) clusters) :
    ∃ n ∈ clusterTree catalog g clusters, n.id = p.node.id ∧ n.kind = p.node.kind := by
  have hmem := (perm_categories_clusterTree catalog g clusters).mem_iff.mpr
    (List.mem_map_of_mem hp)
  obtain ⟨n, hn, heq⟩ := List.mem_map.mp hmem
  obtain ⟨hid, hkind⟩ := Prod.mk.inj heq
  exact ⟨n, (List.mem_filter.mp hn).1, hid, hkind⟩

/-- As long as no two folders of sub-categories share an id, no two nodes do. -/
theorem inOrder_of_nodup_places (h : Cluster.Unambiguous clusters)
    (hplaces : ((placesBelow catalog (.root g.id) clusters).map fun p => p.node.id).Nodup) :
    InOrder [] (clusterTree catalog g clusters) := by
  refine inOrder_of_nodup_below (nodup_below
    (P := fun key clusters => ((placesBelow catalog key clusters).map fun p => p.node.id).Nodup)
    (fun key clusters hids => ?_) (fun key clusters hids c hc => ?_) h hplaces)
  · rw [placesBelow, List.map_append] at hids
    rw [categoriesAt_eq, List.map_map]
    exact (List.nodup_append.mp hids).1
  · rw [placesBelow, List.map_append, List.map_flatMap] at hids
    have hc := List.nodup_flatMap.mp (List.nodup_append.mp hids).2.1 |>.1 c hc
    rwa [placesOf_eq] at hc

theorem not_nodup_of_shared_place {p q : FolderPlace}
    (hp : p ∈ placesBelow catalog (.root g.id) clusters)
    (hq : q ∈ placesBelow catalog (.root g.id) clusters) (hne : p ≠ q)
    (hid : p.node.id = q.node.id) : ¬((clusterTree catalog g clusters).map Node.id).Nodup := by
  intro hnodup
  have hfolders : ((placesBelow catalog (.root g.id) clusters).map fun p => p.node.id).Nodup := by
    have hperm := (perm_categories_clusterTree catalog g clusters).map Prod.fst
    rw [List.map_map, List.map_map] at hperm
    exact hperm.nodup_iff.mp (hnodup.sublist (List.filter_sublist.map Node.id))
  exact hne (List.inj_on_of_nodup_map hfolders hp hq hid)

end Tree

/-- The folders of sub-categories in the tree of a group are those at the places which the types of
its clusters lead through, one at each. Folders at two places have one id exactly if both are below
one node and the chains are named alike, whatever sub-categories these are; and it is for such folders
only that the tree is refused. -/
theorem folder_ids_by_names (catalog : Catalog) (g : ResourceGroup) (clusters : List Cluster)
    (hnames : ∀ s ∈ catalog.subCategories, ':' ∉ s.name.toList)
    (h : Cluster.Unambiguous clusters) :
    ∃ places : List FolderPlace, places.Nodup ∧
      (∀ p, p ∈ places ↔ ∃ a below, descend (.root g.id) clusters a = some (p.key, below) ∧
        ∃ c ∈ below, p.chain <+: subCategoryPath catalog (catalog.type? c.typeId)) ∧
      (((clusterTree catalog g clusters).filter fun n => n.kind.isCategory).map
        fun n => (n.id, n.kind)).Perm (places.map fun p => (p.node.id, p.node.kind)) ∧
      (∀ p ∈ places, ∀ q ∈ places,
        p.node.id = q.node.id ↔ p.key = q.key ∧ p.names = q.names) ∧
      ((∃ fault, checkedClusterTree catalog g clusters = .error fault) ↔
        ∃ p ∈ places, ∃ q ∈ places, p ≠ q ∧ p.key = q.key ∧ p.names = q.names) := by
  have hids {p q : FolderPlace} (hp : p ∈ placesBelow catalog (.root g.id) clusters)
      (hq : q ∈ placesBelow catalog (.root g.id) clusters) :
      p.node.id = q.node.id ↔ p.key = q.key ∧ p.names = q.names :=
    id_node_eq_iff hnames (by simp [ClusterKey.root]) h hp hq
  refine ⟨placesBelow catalog (.root g.id) clusters, nodup_placesBelow h,
    fun p => mem_placesBelow_iff, perm_categories_clusterTree catalog g clusters,
    fun p hp q hq => hids hp hq, ?_, ?_⟩
  · rintro ⟨fault, hfault⟩
    by_contra hnone
    have hdistinct : ((placesBelow catalog (.root g.id) clusters).map fun p => p.node.id).Nodup :=
      (nodup_placesBelow h).map_on fun p hp q hq heq => by
        by_contra hne
        exact hnone ⟨p, hp, q, hq, hne, (hids hp hq).mp heq⟩
    have hok := (ensureOrder_eq_ok_iff _ _).mpr ((violations_eq_nil_iff _ _).mpr
      (inOrder_of_nodup_places catalog g clusters h hdistinct))
    rw [checkedClusterTree, hok] at hfault
    cases hfault
  · rintro ⟨p, hp, q, hq, hne, hsame⟩
    exact checkedClusterTree_of_not_nodup
      (not_nodup_of_shared_place catalog g clusters hp hq hne ((hids hp hq).mpr hsame))

namespace TwoPools

def pools (id : Int32) : SubCategory := ⟨⟨id⟩, "Pools", none⟩

def catalog : Catalog :=
  { types := [⟨⟨5⟩, "Datasource", "JBossAS", .service, none, true, some ⟨11⟩, []⟩,
      ⟨⟨7⟩, "Connector", "JBossAS", .service, none, true, some ⟨12⟩, []⟩]
    subCategories := [pools 11, pools 12] }

def group : ResourceGroup := ⟨⟨3⟩, "Servers", none, .compatible, none, none, none⟩

/-- A cluster of each type, and the sub-categories of the types have one name. -/
def clusters : List Cluster :=
  [⟨⟨5⟩, "main", "main", 2, 2, []⟩, ⟨⟨7⟩, "http", "http", 2, 2, []⟩]

def place (id : Int32) : FolderPlace := ⟨.root group.id, pools id, []⟩

theorem names_catalog : ∀ s ∈ catalog.subCategories, ':' ∉ s.name.toList := by decide

theorem clusters_unambiguous : Cluster.Unambiguous clusters := by
  have hleaf : Cluster.Unambiguous [] := .intro (by decide) (by simp) (by simp)
  exact .intro (by decide) (by decide) (by simpa [clusters] using hleaf)

theorem place_occurs : ∀ id ∈ [(11 : Int32), 12], ∃ a below,
    descend (.root group.id) clusters a = some ((place id).key, below) ∧
      ∃ c ∈ below, (place id).chain <+: subCategoryPath catalog (catalog.type? c.typeId) := by
  have hpath (c : Cluster) (hc : c ∈ clusters) {id : Int32}
      (h : subCategoryPath catalog (catalog.type? c.typeId) = [pools id]) : ∃ a below,
        descend (.root group.id) clusters a = some ((place id).key, below) ∧
          ∃ c ∈ below, (place id).chain <+: subCategoryPath catalog (catalog.type? c.typeId) :=
    ⟨[], clusters, rfl, c, hc, by rw [h]; exact List.prefix_rfl⟩
  intro id hid
  rcases List.mem_pair.mp hid with rfl | rfl
  · exact hpath ⟨⟨5⟩, "main", "main", 2, 2, []⟩ (by simp [clusters]) (by cbv)
  · exact hpath ⟨⟨7⟩, "http", "http", 2, 2, []⟩ (by simp [clusters]) (by cbv)

theorem folder_ids_by_names_two_pools :
    (∀ s ∈ catalog.subCategories, ':' ∉ s.name.toList) ∧ Cluster.Unambiguous clusters ∧
      ∃ fault, checkedClusterTree catalog group clusters = .error fault := by
  obtain ⟨places, -, hplaces, -, -, hrefused⟩ :=
    folder_ids_by_names catalog group clusters names_catalog clusters_unambiguous
  have hplace (id : Int32) (hid : id ∈ [(11 : Int32), 12]) : place id ∈ places :=
    (hplaces _).mpr (place_occurs id hid)
  refine ⟨names_catalog, clusters_unambiguous,
    hrefused.mpr ⟨place 11, hplace 11 (by simp), place 12, hplace 12 (by simp), ?_, rfl, rfl⟩⟩
  exact fun heq => absurd (congrArg FolderPlace.outermost heq) (by decide)

/-- The two folders are of different sub-categories and have one id. -/
theorem folders_share_id :
    (∀ s ∈ catalog.subCategories, ':' ∉ s.name.toList) ∧ Cluster.Unambiguous clusters ∧
      ∃ n ∈ clusterTree catalog group clusters, ∃ m ∈ clusterTree catalog group clusters,
        n.kind = .category (some ⟨11⟩) ⟨"3"⟩ ∧ m.kind = .category (some ⟨12⟩) ⟨"3"⟩ ∧
          n.id = m.id := by
  obtain ⟨n, hn, hnid, hnk⟩ :=
    exists_node_of_place (mem_placesBelow_iff.mpr (place_occurs 11 (by simp)))
  obtain ⟨m, hm, hmid, hmk⟩ :=
    exists_node_of_place (mem_placesBelow_iff.mpr (place_occurs 12 (by simp)))
  have hanchor : (ClusterKey.root group.id).text = "3" := by cbv
  refine ⟨names_catalog, clusters_unambiguous, n, hn, m, hm, ?_, ?_, ?_⟩
  · rw [hnk, ← hanchor]
    rfl
  · rw [hmk, ← hanchor]
    rfl
  · rw [hnid, hmid]
    rfl

end TwoPools

end FleetConsole.Tree
