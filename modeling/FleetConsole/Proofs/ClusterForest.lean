import FleetConsole.Proofs.ClusterLevels

/-! The tree of a group shows its clusters, all of them and no others. A cluster goes by its
address, the numbers that it and those above it have in their lists, and every address has a place
among the nodes: what lies in the node there is what is below the cluster. -/
namespace FleetConsole.Tree

def NodeKind.clusterKey? : NodeKind → Option ClusterKey
  | .cluster key _ _ => some key
  | _ => none

/-- The keys of a cluster and of those below it. -/
def clusterKeys (parent : ClusterKey) : Cluster → List ClusterKey
  | ⟨typeId, resourceKey, _, _, _, children⟩ =>
    let key := parent.child typeId resourceKey
    key :: (children.map (clusterKeys key)).flatten

/-- The key of the node at an address and the clusters below it. -/
def descend (key : ClusterKey) (clusters : List Cluster) :
    List Nat → Option (ClusterKey × List Cluster)
  | [] => some (key, clusters)
  | i :: rest => clusters[i]?.bind fun c => descend (childKey key c) c.children rest

/-- The nodes show the clusters, each at the place of its address. -/
structure Shows (catalog : Catalog) (nodes : List Node) (key : ClusterKey)
    (clusters : List Cluster) (place : List Nat → Nat) : Prop where
  root : place [] = 0
  injective : ∀ a b, (descend key clusters a).isSome → (descend key clusters b).isSome →
    place a = place b → a = b
  /-- All nodes but folders stand for something. -/
  onto : ∀ j n, nodes[j]? = some n → n.kind.isSynthetic = false →
    ∃ a, (descend key clusters a).isSome ∧ place a = j
  node : ∀ a k below i c, descend key clusters a = some (k, below) → below[i]? = some c →
    ∃ parent, nodes[place (a ++ [i])]? =
      some { clusterNode ⟨k.text⟩ (childKey k c) (catalog.type? c.typeId) c with
        parentId := parent }
  enclosing : ∀ a k below i c, descend key clusters a = some (k, below) → below[i]? = some c →
    enclosing? nodes (place (a ++ [i])) = some (place a)
  /-- The clusters of a type that may occur more than once are what its only folder holds. -/
  gathered : ∀ a k below c t, descend key clusters a = some (k, below) → c ∈ below →
    catalog.type? c.typeId = some t → t.singleton = false →
    ∃ f, (∀ j, enclosing? nodes j = some (place a) ∧
        (nodes[j]?.bind fun n => n.kind.typeFolder?) = some t.id ↔ j = f) ∧
      ∀ j, container? nodes j = some f ↔
        ∃ i d, below[i]? = some d ∧ d.typeId = t.id ∧ place (a ++ [i]) = j

theorem clusterKeys_eq (parent : ClusterKey) (c : Cluster) :
    clusterKeys parent c =
      childKey parent c :: c.children.flatMap (clusterKeys (childKey parent c)) := by
  obtain ⟨typeId, resourceKey, name, members, clusterSize, children⟩ := c
  rw [clusterKeys, List.flatMap_def]
  rfl

theorem descend_append_singleton (key : ClusterKey) (clusters : List Cluster) (a : List Nat)
    (i : Nat) : descend key clusters (a ++ [i]) =
      (descend key clusters a).bind fun at' =>
        at'.2[i]?.map fun c => (childKey at'.1 c, c.children) := by
  induction a generalizing key clusters with
  | nil =>
    rw [List.nil_append, descend, descend, Option.bind_some]
    cases clusters[i]? <;> rfl
  | cons j a ih =>
    rw [List.cons_append, descend, descend]
    cases clusters[j]? with
    | none => rfl
    | some c => exact ih _ _

section Kinds

theorem isSynthetic_of_mem_categories {container : NodeId} {f : Folder} {n : Node}
    (h : n ∈ f.categories container) : n.kind.isSynthetic = true ∧ n.kind.clusterKey? = none := by
  induction f using Folder.induct generalizing container with
  | step sub nested members ih =>
    rw [Folder.categories_eq] at h
    rcases List.mem_cons.mp h with rfl | hmem
    · exact ⟨rfl, rfl⟩
    · obtain ⟨f, hf, hn⟩ := List.mem_flatMap.mp hmem
      exact ih f hf hn

variable (catalog : Catalog) (key : ClusterKey) (clusters : List Cluster)

/-- All that is added to the nodes of the clusters are folders. -/
theorem exists_folders_below :
    ∃ folders : List Node, ((below catalog key clusters).flatMap Branch.nodes).Perm
        (folders ++ clusters.flatMap fun c => (branchOf catalog key c).nodes) ∧
      ∀ n ∈ folders, n.kind.isSynthetic = true ∧ n.kind.clusterKey? = none := by
  have hperm := perm_nodes_below catalog key clusters
  rw [← List.append_assoc] at hperm
  refine ⟨_, hperm, fun n hn => ?_⟩
  rcases List.mem_append.mp hn with hcategory | hfolder
  · obtain ⟨f, -, hmem⟩ := List.mem_flatMap.mp hcategory
    exact isSynthetic_of_mem_categories hmem
  · obtain ⟨typed, -, hsome⟩ := List.mem_filterMap.mp hfolder
    obtain ⟨t, -, -, rfl⟩ := typeFolderNode?_eq_some_iff.mp hsome
    exact ⟨rfl, rfl⟩

theorem perm_keys_below :
    (((below catalog key clusters).flatMap Branch.nodes).filterMap fun n =>
      n.kind.clusterKey?).Perm (clusters.flatMap (clusterKeys key)) := by
  induction clusters using Cluster.induct generalizing key with
  | step clusters ih =>
    obtain ⟨folders, hperm, hfolders⟩ := exists_folders_below catalog key clusters
    have hnone : folders.filterMap (fun n => n.kind.clusterKey?) = [] :=
      List.filterMap_eq_nil_iff.mpr fun n hn => (hfolders n hn).2
    have hbranch (c : Cluster) (hc : c ∈ clusters) :
        ((branchOf catalog key c).nodes.filterMap fun n => n.kind.clusterKey?).Perm
          (clusterKeys key c) := by
      rw [Branch.nodes_eq, branchOf_children, clusterKeys_eq,
        List.filterMap_cons_some (by rw [kind_branchOf]; rfl)]
      exact (ih c hc _).cons _
    refine (hperm.filterMap _).trans ?_
    rw [List.filterMap_append, hnone, List.nil_append, List.filterMap_flatMap]
    exact List.Perm.flatMap_left _ hbranch

variable {catalog key clusters} in
theorem kind_of_mem_below {n : Node}
    (h : n ∈ (below catalog key clusters).flatMap Branch.nodes) :
    n.kind.isSynthetic = true ∨ ∃ k typeId category, n.kind = .cluster k typeId category := by
  induction clusters using Cluster.induct generalizing key with
  | step clusters ih =>
    obtain ⟨folders, hperm, hfolders⟩ := exists_folders_below catalog key clusters
    rcases List.mem_append.mp (hperm.mem_iff.mp h) with hfolder | hcluster
    · exact .inl (hfolders n hfolder).1
    · obtain ⟨c, hc, hmem⟩ := List.mem_flatMap.mp hcluster
      rw [Branch.nodes_eq, branchOf_children] at hmem
      rcases List.mem_cons.mp hmem with rfl | hbelow
      · exact .inr ⟨_, _, _, kind_branchOf key c⟩
      · exact ih c hc hbelow

end Kinds

/-- Every address below a spot has a spot. -/
theorem exists_spots {s : Spot} (h : s.branch.children = below catalog key clusters) :
    ∃ spot : List Nat → Spot, spot [] = s ∧
      ∀ a k cs, descend key clusters a = some (k, cs) →
        Level catalog k cs (spot a) fun i => spot (a ++ [i]) := by
  induction clusters using Cluster.induct generalizing key s with
  | step clusters ih =>
    obtain ⟨first, hfirst⟩ := exists_level h
    have hrest (i : Nat) : ∃ spot : List Nat → Spot, ∀ c, clusters[i]? = some c →
        spot [] = first i ∧ ∀ a k cs, descend (childKey key c) c.children a = some (k, cs) →
          Level catalog k cs (spot a) fun j => spot (a ++ [j]) := by
      cases hc : clusters[i]? with
      | none => exact ⟨fun _ => s, by simp⟩
      | some c =>
        have hchildren : (first i).branch.children = below catalog (childKey key c) c.children := by
          rw [hfirst.branch i c hc, branchOf_children]
        obtain ⟨spot, hspot, hlevel⟩ := ih c (List.mem_of_getElem? hc) hchildren
        refine ⟨spot, fun d hd => ?_⟩
        obtain rfl := Option.some.inj hd
        exact ⟨hspot, hlevel⟩
    choose rest hrest using hrest
    let spot : List Nat → Spot
      | [] => s
      | i :: a => rest i a
    have hspot (i : Nat) (c : Cluster) (hc : clusters[i]? = some c) : spot [i] = first i :=
      (hrest i c hc).1
    refine ⟨spot, rfl, fun a k cs ha => ?_⟩
    cases a with
    | nil =>
      obtain ⟨rfl, rfl⟩ := Prod.mk.inj (Option.some.inj ha)
      exact hfirst.congr hspot
    | cons i a =>
      rw [descend] at ha
      obtain ⟨c, hc, ha⟩ := Option.bind_eq_some_iff.mp ha
      exact (hrest i c hc).2 a k cs ha

/-- Every address in the tree of a group has a spot. -/
structure Places (catalog : Catalog) (g : ResourceGroup) (clusters : List Cluster)
    (spot : List Nat → Spot) : Prop where
  root : spot [] = (groupBranch catalog g clusters).root
  level : ∀ a k below, descend (.root g.id) clusters a = some (k, below) →
    Level catalog k below (spot a) fun i => spot (a ++ [i])

namespace Places

variable {catalog : Catalog} {g : ResourceGroup} {clusters : List Cluster}
  {spot : List Nat → Spot}

theorem exists_above {a : List Nat} {i : Nat}
    (h : (descend (.root g.id) clusters (a ++ [i])).isSome) :
    ∃ k below c, descend (.root g.id) clusters a = some (k, below) ∧ below[i]? = some c := by
  obtain ⟨at', hat⟩ := Option.isSome_iff_exists.mp h
  rw [descend_append_singleton] at hat
  obtain ⟨⟨k, below⟩, ha, hmap⟩ := Option.bind_eq_some_iff.mp hat
  obtain ⟨c, hc, -⟩ := Option.map_eq_some_iff.mp hmap
  exact ⟨k, below, c, ha, hc⟩

theorem isSome_descend {a : List Nat} {i : Nat} {k : ClusterKey} {below : List Cluster}
    {c : Cluster} (ha : descend (.root g.id) clusters a = some (k, below))
    (hc : below[i]? = some c) :
    (descend (.root g.id) clusters (a ++ [i])).isSome := by
  rw [descend_append_singleton, ha, Option.bind_some, hc]
  rfl

theorem below_root (h : Places catalog g clusters spot) {a : List Nat}
    (ha : (descend (.root g.id) clusters a).isSome) :
    Spot.Below (groupBranch catalog g clusters).root (spot a) ∧
      (spot a).branch.node.kind.isSynthetic = false := by
  induction a using List.reverseRecOn with
  | nil =>
    rw [h.root]
    exact ⟨.refl, rfl⟩
  | append_singleton a i ih =>
    obtain ⟨k, below, c, hdescend, hc⟩ := exists_above ha
    have hlevel := h.level a k below hdescend
    obtain ⟨d, hd, hopens⟩ := hlevel.opens i c hc
    have habove := (ih (Option.isSome_iff_exists.mpr ⟨_, hdescend⟩)).1
    refine ⟨(habove.tail hd).trans (Spot.below_of_opens hopens), ?_⟩
    rw [hlevel.branch i c hc, isSynthetic_branchOf]

theorem enclosing?_eq (h : Places catalog g clusters spot) {a : List Nat} {k : ClusterKey}
    {below : List Cluster} (ha : descend (.root g.id) clusters a = some (k, below)) {j : Nat} :
    enclosing? (clusterTree catalog g clusters) j = some (spot a).position ↔
      ∃ d ∈ (spot a).children, ∃ t, Spot.Opens NodeKind.isSynthetic d t ∧ t.position = j := by
  obtain ⟨hbelow, hkind⟩ := h.below_root (Option.isSome_iff_exists.mpr ⟨_, ha⟩)
  rw [clusterTree_eq]
  exact Branch.enclosing?_eq_some_iff (apart_groupBranch g clusters) hbelow hkind

theorem enclosing?_spot (h : Places catalog g clusters spot) {a : List Nat} {i : Nat}
    {k : ClusterKey} {below : List Cluster} {c : Cluster}
    (ha : descend (.root g.id) clusters a = some (k, below)) (hc : below[i]? = some c) :
    enclosing? (clusterTree catalog g clusters) (spot (a ++ [i])).position =
      some (spot a).position := by
  obtain ⟨d, hd, hopens⟩ := (h.level a k below ha).opens i c hc
  exact (h.enclosing?_eq ha).mpr ⟨d, hd, _, hopens, rfl⟩

theorem enclosing?_root (h : Places catalog g clusters spot) :
    enclosing? (clusterTree catalog g clusters) (spot []).position = none := by
  rw [h.root, clusterTree_eq]
  exact Branch.enclosing?_root _

/-- Two addresses with one place are the same, since what encloses it has one place too. -/
theorem injective (h : Places catalog g clusters spot) {a b : List Nat}
    (ha : (descend (.root g.id) clusters a).isSome) (hb : (descend (.root g.id) clusters b).isSome)
    (heq : (spot a).position = (spot b).position) : a = b := by
  induction a using List.reverseRecOn generalizing b with
  | nil =>
    cases b using List.reverseRecOn with
    | nil => rfl
    | append_singleton b j =>
      obtain ⟨k, below, c, hdescend, hc⟩ := exists_above hb
      have henclosing := h.enclosing?_spot hdescend hc
      rw [← heq, h.enclosing?_root] at henclosing
      simp at henclosing
  | append_singleton a i ih =>
    obtain ⟨k, below, c, hdescend, hc⟩ := exists_above ha
    have henclosing := h.enclosing?_spot hdescend hc
    cases b using List.reverseRecOn with
    | nil =>
      rw [heq, h.enclosing?_root] at henclosing
      simp at henclosing
    | append_singleton b j =>
      obtain ⟨k', below', d, hdescend', hd⟩ := exists_above hb
      rw [heq, h.enclosing?_spot hdescend' hd] at henclosing
      have hposition := (Option.some.inj henclosing).symm
      obtain rfl := ih (Option.isSome_iff_exists.mpr ⟨_, hdescend⟩)
        (Option.isSome_iff_exists.mpr ⟨_, hdescend'⟩) hposition
      obtain ⟨rfl, rfl⟩ := Prod.mk.inj (Option.some.inj (hdescend.symm.trans hdescend'))
      have hspot := Spot.eq_of_below (h.below_root ha).1 (h.below_root hb).1 heq
      rw [(h.level a k below hdescend).injective i j (List.getElem?_eq_some_iff.mp hc).1
        (List.getElem?_eq_some_iff.mp hd).1 hspot]

/-- A node of the tree is at an address, or is a folder found from one through other folders. -/
theorem exists_address (h : Places catalog g clusters spot) {t : Spot}
    (ht : Spot.Below (groupBranch catalog g clusters).root t) :
    ∃ a, (descend (.root g.id) clusters a).isSome ∧ (t = spot a ∨
      t.branch.node.kind.isSynthetic = true ∧
        ∃ d ∈ (spot a).children, Spot.Opens NodeKind.isSynthetic d t) := by
  induction ht with
  | refl => exact ⟨[], rfl, .inl h.root.symm⟩
  | @tail m t hm hmt ih =>
    obtain ⟨a, ha, hplace⟩ := ih
    obtain ⟨⟨k, below⟩, hdescend⟩ := Option.isSome_iff_exists.mp ha
    have hopens : ∃ d ∈ (spot a).children, Spot.Opens NodeKind.isSynthetic d t := by
      rcases hplace with rfl | ⟨hsynthetic, d, hd, hdm⟩
      · exact ⟨t, hmt, .refl⟩
      · exact ⟨d, hd, hdm.tail ⟨hsynthetic, hmt⟩⟩
    by_cases hkind : t.branch.node.kind.isSynthetic = true
    · exact ⟨a, ha, .inr ⟨hkind, hopens⟩⟩
    · rw [Bool.not_eq_true] at hkind
      obtain ⟨d, hd, hdt⟩ := hopens
      obtain ⟨i, c, hc, heq⟩ := (h.level a k below hdescend).complete d hd t hdt hkind
      exact ⟨a ++ [i], isSome_descend hdescend hc, .inl heq.symm⟩

/-- The node at the position of a spot is that of its branch but for the parent. -/
theorem exists_node (catalog : Catalog) (g : ResourceGroup) (clusters : List Cluster) {t : Spot}
    (ht : Spot.Below (groupBranch catalog g clusters).root t) :
    ∃ parent, (clusterTree catalog g clusters)[t.position]? =
      some { t.branch.node with parentId := parent } := by
  obtain ⟨parent, hfits⟩ := Branch.exists_fits ht
  rw [clusterTree_eq]
  exact ⟨parent, Spot.node_of_fits hfits⟩

theorem gathered (h : Places catalog g clusters spot) {a : List Nat} {k : ClusterKey}
    {below : List Cluster} (ha : descend (.root g.id) clusters a = some (k, below)) {c : Cluster}
    (hc : c ∈ below) {t : ResourceType} (ht : catalog.type? c.typeId = some t)
    (hsingleton : t.singleton = false) :
    ∃ f, (∀ j, enclosing? (clusterTree catalog g clusters) j = some (spot a).position ∧
        ((clusterTree catalog g clusters)[j]?.bind fun n => n.kind.typeFolder?) = some t.id ↔
          j = f) ∧
      ∀ j, container? (clusterTree catalog g clusters) j = some f ↔
        ∃ i d, below[i]? = some d ∧ d.typeId = t.id ∧ (spot (a ++ [i])).position = j := by
  obtain ⟨f, hkind, ⟨d, hd, hopens⟩, hunique, hchildren⟩ :=
    (h.level a k below ha).exists_folder hc ht hsingleton
  have habove := (h.below_root (Option.isSome_iff_exists.mpr ⟨_, ha⟩)).1
  have hroot {e u : Spot} (he : e ∈ (spot a).children)
      (hu : Spot.Opens NodeKind.isSynthetic e u) :
      Spot.Below (groupBranch catalog g clusters).root u :=
    (habove.tail he).trans (Spot.below_of_opens hu)
  refine ⟨f.position, fun j => ?_, fun j => ?_⟩
  · rw [h.enclosing?_eq ha]
    constructor
    · rintro ⟨⟨e, he, u, hu, rfl⟩, htype⟩
      obtain ⟨parent, hnode⟩ := exists_node catalog g clusters (hroot he hu)
      rw [hnode] at htype
      rw [hunique e he u hu htype]
    · rintro rfl
      obtain ⟨parent, hnode⟩ := exists_node catalog g clusters (hroot hd hopens)
      rw [hnode]
      exact ⟨⟨d, hd, f, hopens, rfl⟩, hkind⟩
  · have hcontainer := Branch.container?_eq_some_iff (apart_groupBranch g clusters)
      (hroot hd hopens) (j := j)
    rw [← clusterTree_eq] at hcontainer
    refine Iff.trans hcontainer ?_
    constructor
    · rintro ⟨u, hu, rfl⟩
      obtain ⟨i, c', hc', hid, heq⟩ := (hchildren u).mp hu
      exact ⟨i, c', hc', hid, congrArg Spot.position heq⟩
    · rintro ⟨i, c', hc', hid, rfl⟩
      exact ⟨_, (hchildren _).mpr ⟨i, c', hc', hid, rfl⟩, rfl⟩

theorem shows (h : Places catalog g clusters spot) :
    Shows catalog (clusterTree catalog g clusters) (.root g.id) clusters
      fun a => (spot a).position where
  root := congrArg Spot.position h.root
  injective _ _ ha hb heq := h.injective ha hb heq
  onto j n hn hkind := by
    have hlt := (List.getElem?_eq_some_iff.mp hn).1
    rw [clusterTree_eq] at hlt
    obtain ⟨t, ht, rfl⟩ := Branch.exists_spot hlt
    obtain ⟨parent, hnode⟩ := exists_node catalog g clusters ht
    obtain rfl := Option.some.inj (hn.symm.trans hnode)
    obtain ⟨a, ha, rfl | ⟨hsynthetic, -⟩⟩ := h.exists_address ht
    · exact ⟨a, ha, rfl⟩
    · exact absurd hsynthetic (by simp [hkind])
  node a k below i c ha hc := by
    have hbelow := (h.below_root (isSome_descend ha hc)).1
    obtain ⟨parent, hnode⟩ := exists_node catalog g clusters hbelow
    refine ⟨parent, ?_⟩
    rw [hnode, (h.level a k below ha).branch i c hc, branchOf_node]
  enclosing a k below i c ha hc := h.enclosing?_spot ha hc
  gathered a k below c t ha hc ht hsingleton := h.gathered ha hc ht hsingleton

end Places

/-- The tree of a group is its node and then, among folders, a node for every cluster and for
nothing else, each in the node of the cluster that it is below and in the folder of its type. -/
theorem clusterTree_shows_forest (catalog : Catalog) (g : ResourceGroup)
    (clusters : List Cluster) :
    ∃ rest, clusterTree catalog g clusters = groupNode catalog g clusters :: rest ∧
      (∀ n ∈ rest, n.kind.isSynthetic = true ∨
        ∃ key typeId category, n.kind = .cluster key typeId category) ∧
      (rest.filterMap fun n => n.kind.clusterKey?).Perm
        (clusters.flatMap (clusterKeys (.root g.id))) ∧
      ∃ place, Shows catalog (clusterTree catalog g clusters) (.root g.id) clusters place := by
  have hkinds : ((below catalog (.root g.id) clusters).flatMap
      (Branch.flatten (some (groupNode catalog g clusters).id))).map Node.kind =
        ((below catalog (.root g.id) clusters).flatMap Branch.nodes).map Node.kind := by
    rw [List.map_flatMap, List.map_flatMap]
    exact List.flatMap_congr fun b _ => Branch.map_flatten (fun _ _ => rfl) b _
  refine ⟨(below catalog (.root g.id) clusters).flatMap
    (Branch.flatten (some (groupNode catalog g clusters).id)), ?_, fun n hn => ?_, ?_, ?_⟩
  · rw [clusterTree_eq, Branch.flatten_eq]
    rfl
  · have hkind := List.mem_map_of_mem (f := Node.kind) hn
    rw [hkinds] at hkind
    obtain ⟨m, hm, hmn⟩ := List.mem_map.mp hkind
    rw [← hmn]
    exact kind_of_mem_below hm
  · have hkeys := congrArg (List.filterMap NodeKind.clusterKey?) hkinds
    rw [List.filterMap_map, List.filterMap_map] at hkeys
    exact (List.Perm.of_eq hkeys).trans (perm_keys_below _ _ _)
  · obtain ⟨spot, hroot, hlevel⟩ := exists_spots (s := (groupBranch catalog g clusters).root)
      (groupBranch_children catalog g clusters)
    have hplaces : Places catalog g clusters spot := ⟨hroot, hlevel⟩
    exact ⟨_, hplaces.shows⟩

end FleetConsole.Tree
