import FleetConsole.Proofs.ClusterIds

/-! What is found below one node of the tree of a group on ways through folders only: every cluster
below it once, and for each type that may occur more than once one folder with the clusters of that
type. -/
namespace FleetConsole.Tree

namespace NodeKind

def isCategory (k : NodeKind) : Bool := k.nodeClass = .category

/-- The type whose folder it is. -/
def typeFolder? : NodeKind → Option TypeId
  | .autoGroup typeId _ _ _ => some typeId
  | _ => none

theorem isSynthetic_of_isCategory {k : NodeKind} (h : k.isCategory = true) :
    k.isSynthetic = true := by
  cases k <;> simp_all [isCategory, isSynthetic, nodeClass]

theorem isCategory_of_typeFolder? {k : NodeKind} {id : TypeId} (h : k.typeFolder? = some id) :
    k.isCategory = false := by
  cases k <;> simp_all [isCategory, typeFolder?, nodeClass]

end NodeKind

variable {catalog : Catalog} {key : ClusterKey} {clusters : List Cluster}

theorem kind_branchOf (key : ClusterKey) (c : Cluster) : (branchOf catalog key c).node.kind =
    .cluster (childKey key c) c.typeId ((catalog.type? c.typeId).map ResourceType.category) := by
  rw [branchOf_node]
  rfl

@[simp] theorem isSynthetic_branchOf (key : ClusterKey) (c : Cluster) :
    (branchOf catalog key c).node.kind.isSynthetic = false := by
  rw [kind_branchOf]
  rfl

@[simp] theorem isCategory_branchOf (key : ClusterKey) (c : Cluster) :
    (branchOf catalog key c).node.kind.isCategory = false := by
  rw [kind_branchOf]
  rfl

@[simp] theorem typeFolder?_branchOf (key : ClusterKey) (c : Cluster) :
    (branchOf catalog key c).node.kind.typeFolder? = none := by
  rw [kind_branchOf]
  rfl

theorem typeId_of_branchOf_eq {key : ClusterKey} {c d : Cluster}
    (h : branchOf catalog key c = branchOf catalog key d) : c.typeId = d.typeId := by
  have hkind := congrArg (fun b => b.node.kind) h
  simp only [kind_branchOf] at hkind
  exact (NodeKind.cluster.inj hkind).2.1

theorem perm_front_filed : ((filed catalog ⟨key.text⟩ (branchesOf catalog key clusters)).flatMap
    (Branch.front NodeKind.isSynthetic)).Perm (clusters.map (branchOf catalog key)) := by
  have hgroup (typed : TypeId × List Branch)
      (htyped : typed ∈ byType (branchesOf catalog key clusters)) :
      ((typedBranches ⟨key.text⟩ (catalog.type? typed.1) typed.2).flatMap
        (Branch.front NodeKind.isSynthetic)).Perm typed.2 := by
    have hmembers : typed.2.flatMap (Branch.front NodeKind.isSynthetic) = typed.2 := by
      have hone : typed.2.flatMap (Branch.front NodeKind.isSynthetic) =
          typed.2.flatMap fun b => [b] := by
        refine List.flatMap_congr fun b hb => ?_
        obtain ⟨c, -, -, rfl⟩ := exists_of_mem_byType htyped hb
        exact Branch.front_of_neg (isSynthetic_branchOf key c)
      rw [hone, List.flatMap_singleton']
    cases catalog.type? typed.1 with
    | none => rw [typedBranches, hmembers]
    | some t =>
      rw [typedBranches]
      split
      · rw [hmembers]
      · have hsorted := (Branch.perm_sort typed.2).flatMap_right (Branch.front NodeKind.isSynthetic)
        rw [hmembers] at hsorted
        rw [List.flatMap_singleton, Branch.front_of_pos rfl]
        exact hsorted
  have hclusters := perm_byType (branchesOf catalog key clusters)
  rw [branchesOf, List.map_map] at hclusters
  rw [filed, List.flatMap_assoc]
  exact (List.Perm.flatMap_left _ hgroup).trans hclusters

theorem isCategory_of_mem_filed {b : Branch}
    (hb : b ∈ filed catalog ⟨key.text⟩ (branchesOf catalog key clusters)) :
    b.node.kind.isCategory = false := by
  obtain ⟨typed, htyped, ⟨hmember, -⟩ | ⟨t, -, -, rfl⟩⟩ := mem_filed.mp hb
  · obtain ⟨c, -, -, rfl⟩ := exists_of_mem_byType htyped hmember
    exact isCategory_branchOf key c
  · rfl

/-- The clusters below a node in their order, and the spots of their branches. -/
theorem exists_cluster_spots {s : Spot} (h : s.branch.children = below catalog key clusters) :
    ∃ spots : List Spot, spots.map Spot.branch = clusters.map (branchOf catalog key) ∧
      spots.Nodup ∧ ∀ t, t ∈ spots ↔
        ∃ c ∈ s.children, Spot.Opens NodeKind.isSynthetic c t ∧
          t.branch.node.kind.isSynthetic = false := by
  apply Spot.exists_spots_of_perm
  rw [h]
  exact perm_front_filed.symm.trans (perm_front_arrangeBelow _ _ _ fun _ _ => rfl).symm

theorem exists_filed_spots {s : Spot} (h : s.branch.children = below catalog key clusters) :
    ∃ spots : List Spot,
      spots.map Spot.branch = filed catalog ⟨key.text⟩ (branchesOf catalog key clusters) ∧
      spots.Nodup ∧ ∀ t, t ∈ spots ↔
        ∃ c ∈ s.children, Spot.Opens NodeKind.isCategory c t ∧
          t.branch.node.kind.isCategory = false := by
  apply Spot.exists_spots_of_perm
  have hfiled : (filed catalog ⟨key.text⟩ (branchesOf catalog key clusters)).flatMap
      (Branch.front NodeKind.isCategory) =
        (filed catalog ⟨key.text⟩ (branchesOf catalog key clusters)).flatMap fun b => [b] :=
    List.flatMap_congr fun b hb => Branch.front_of_neg (isCategory_of_mem_filed hb)
  have hperm := perm_front_arrangeBelow catalog ⟨key.text⟩ (branchesOf catalog key clusters)
    (p := NodeKind.isCategory) fun _ _ => rfl
  rw [hfiled, List.flatMap_singleton'] at hperm
  rw [h]
  exact hperm.symm

/-- The folder at a spot holds the branches of the clusters of a type. -/
structure Gathers (catalog : Catalog) (key : ClusterKey) (clusters : List Cluster) (f : Spot)
    (t : ResourceType) (members : List Branch) : Prop where
  mem : (t.id, members) ∈ byType (branchesOf catalog key clusters)
  known : catalog.type? t.id = some t
  branch : f.branch = typeFolder ⟨key.text⟩ t members

theorem Gathers.typeFolder? {f : Spot} {t : ResourceType} {members : List Branch}
    (h : Gathers catalog key clusters f t members) :
    f.branch.node.kind.typeFolder? = some t.id := by
  rw [h.branch]
  rfl

theorem Gathers.exists_of_mem_children {f d : Spot} {t : ResourceType} {members : List Branch}
    (h : Gathers catalog key clusters f t members) (hd : d ∈ f.children) :
    ∃ c ∈ clusters, c.typeId = t.id ∧ branchOf catalog key c = d.branch := by
  have hmem := Spot.branch_of_mem_children hd
  rw [h.branch] at hmem
  exact exists_of_mem_byType h.mem ((Branch.perm_sort members).mem_iff.mp hmem)

/-- What is filed below a node is a cluster without a folder of its type, or such a folder. -/
theorem cases_of_opens {s c t : Spot} (h : s.branch.children = below catalog key clusters)
    (hc : c ∈ s.children) (ht : Spot.Opens NodeKind.isCategory c t)
    (hkind : t.branch.node.kind.isCategory = false) :
    (∃ d ∈ clusters, branchOf catalog key d = t.branch ∧
        typeFolderNode? ⟨key.text⟩ (catalog.type? d.typeId) = none) ∨
      ∃ u members, Gathers catalog key clusters t u members := by
  obtain ⟨spots, hmap, -, hmem⟩ := exists_filed_spots h
  have hfiled := List.mem_map_of_mem (f := Spot.branch) ((hmem t).mpr ⟨c, hc, ht, hkind⟩)
  rw [hmap] at hfiled
  obtain ⟨typed, htyped, ⟨hmember, hnone⟩ | ⟨u, hu, -, hbranch⟩⟩ := mem_filed.mp hfiled
  · obtain ⟨d, hd, hid, hbranch⟩ := exists_of_mem_byType htyped hmember
    exact .inl ⟨d, hd, hbranch, hid ▸ hnone⟩
  · have hid := Catalog.id_of_type? hu
    exact .inr ⟨u, typed.2, by rw [hid]; exact htyped, by rw [hid]; exact hu, hbranch⟩

/-- What is found on a way through folders is found on a way through those of sub-categories, or is
a cluster in the folder of a type. -/
theorem opens_cases {s c t : Spot} (h : s.branch.children = below catalog key clusters)
    (hc : c ∈ s.children) (ht : Spot.Opens NodeKind.isSynthetic c t) :
    Spot.Opens NodeKind.isCategory c t ∨
      ∃ f u members, Spot.Opens NodeKind.isCategory c f ∧
        Gathers catalog key clusters f u members ∧ t ∈ f.children := by
  induction ht with
  | refl => exact .inl .refl
  | @tail m t hm hmt ih =>
    obtain ⟨hsynthetic, hmem⟩ := hmt
    rcases ih with hopens | ⟨f, u, members, -, hf, hmf⟩
    · by_cases hcategory : m.branch.node.kind.isCategory = true
      · exact .inl (hopens.tail ⟨hcategory, hmem⟩)
      · rw [Bool.not_eq_true] at hcategory
        rcases cases_of_opens h hc hopens hcategory with ⟨d, -, hbranch, -⟩ | ⟨u, members, hm⟩
        · simp [← hbranch] at hsynthetic
        · exact .inr ⟨m, u, members, hopens, hm, hmem⟩
    · obtain ⟨d, -, -, hbranch⟩ := hf.exists_of_mem_children hmf
      simp [← hbranch] at hsynthetic

theorem countP_filed {t : ResourceType} (ht : catalog.type? t.id = some t)
    (hsingleton : t.singleton = false) :
    (filed catalog ⟨key.text⟩ (branchesOf catalog key clusters)).countP
        (fun b => b.node.kind.typeFolder? = some t.id) =
      ((byType (branchesOf catalog key clusters)).map (·.1)).count t.id := by
  have hgroup (typed : TypeId × List Branch)
      (htyped : typed ∈ byType (branchesOf catalog key clusters)) :
      (typedBranches ⟨key.text⟩ (catalog.type? typed.1) typed.2).countP
        (fun b => b.node.kind.typeFolder? = some t.id) = if typed.1 = t.id then 1 else 0 := by
    have hmembers : typed.2.countP (fun b => b.node.kind.typeFolder? = some t.id) = 0 := by
      refine List.countP_eq_zero.mpr fun b hb => ?_
      obtain ⟨c, -, -, rfl⟩ := exists_of_mem_byType htyped hb
      simp
    cases hu : catalog.type? typed.1 with
    | none =>
      have hne : typed.1 ≠ t.id := by
        intro heq
        simp [heq, ht] at hu
      rw [typedBranches, hmembers, if_neg hne]
    | some u =>
      rw [typedBranches]
      split
      · have hne : typed.1 ≠ t.id := by
          intro heq
          rw [heq, ht] at hu
          simp_all
        rw [hmembers, if_neg hne]
      · rw [← Catalog.id_of_type? hu, List.countP_singleton]
        simp [typeFolder, typeFolderNode, NodeKind.typeFolder?]
  rw [filed]
  generalize byType (branchesOf catalog key clusters) = groups at hgroup ⊢
  induction groups with
  | nil => rfl
  | cons typed rest ih =>
    rw [List.forall_mem_cons] at hgroup
    rw [List.flatMap_cons, List.countP_append, hgroup.1, ih hgroup.2, List.map_cons,
      List.count_cons, Nat.add_comm]
    simp

theorem countP_filed_eq_one {t : ResourceType} (ht : catalog.type? t.id = some t)
    (hsingleton : t.singleton = false) (hoccurs : ∃ c ∈ clusters, c.typeId = t.id) :
    (filed catalog ⟨key.text⟩ (branchesOf catalog key clusters)).countP
      (fun b => b.node.kind.typeFolder? = some t.id) = 1 := by
  obtain ⟨c, hc, hid⟩ := hoccurs
  have hcluster : (c.typeId, branchOf catalog key c) ∈ branchesOf catalog key clusters :=
    List.mem_map_of_mem hc
  obtain ⟨typed, htyped, htypeId, -⟩ := exists_mem_byType hcluster
  have htype : t.id ∈ (byType (branchesOf catalog key clusters)).map (·.1) :=
    List.mem_map.mpr ⟨typed, htyped, htypeId.trans hid⟩
  rw [countP_filed ht hsingleton]
  exact List.count_eq_one_of_mem (nodup_byType _) htype

theorem exists_only_of_countP {α : Type} {p : α → Bool} {l : List α} (h : l.countP p = 1) :
    ∃ a, ∀ b, b ∈ l ∧ p b = true ↔ b = a := by
  rw [List.countP_eq_length_filter] at h
  obtain ⟨a, ha⟩ := List.length_eq_one_iff.mp h
  exact ⟨a, fun b => by rw [← List.mem_filter, ha, List.mem_singleton]⟩

/-- There is one folder of each type that may occur more than once. -/
theorem exists_folder {s : Spot} (h : s.branch.children = below catalog key clusters)
    {t : ResourceType} (ht : catalog.type? t.id = some t) (hsingleton : t.singleton = false)
    (hoccurs : ∃ c ∈ clusters, c.typeId = t.id) :
    ∃ f members, Gathers catalog key clusters f t members ∧
      (∃ c ∈ s.children, Spot.Opens NodeKind.isCategory c f) ∧
      ∀ c ∈ s.children, ∀ g, Spot.Opens NodeKind.isSynthetic c g →
        g.branch.node.kind.typeFolder? = some t.id → g = f := by
  obtain ⟨spots, hmap, -, hmem⟩ := exists_filed_spots h
  have hone : spots.countP (fun g => g.branch.node.kind.typeFolder? = some t.id) = 1 := by
    rw [← countP_filed_eq_one ht hsingleton hoccurs, ← hmap, List.countP_map]
    rfl
  obtain ⟨f, honly⟩ := exists_only_of_countP hone
  simp only [decide_eq_true_iff] at honly
  obtain ⟨hfmem, hfkind⟩ := (honly f).mpr rfl
  obtain ⟨c, hc, hopens, hcategory⟩ := (hmem f).mp hfmem
  rcases cases_of_opens h hc hopens hcategory with ⟨d, -, hbranch, -⟩ | ⟨u, members, hgathers⟩
  · simp [← hbranch] at hfkind
  · have hid : u.id = t.id := Option.some.inj (hgathers.typeFolder?.symm.trans hfkind)
    obtain rfl : u = t := by
      have hknown := hgathers.known
      rw [hid, ht] at hknown
      exact (Option.some.inj hknown).symm
    refine ⟨f, members, hgathers, ⟨c, hc, hopens⟩, fun c hc g hg hkind => ?_⟩
    rcases opens_cases h hc hg with hg | ⟨f', v, others, -, hf', hgf'⟩
    · refine (honly g).mp ⟨(hmem g).mpr ⟨c, hc, hg, ?_⟩, hkind⟩
      exact NodeKind.isCategory_of_typeFolder? hkind
    · obtain ⟨d, -, -, hbranch⟩ := hf'.exists_of_mem_children hgf'
      simp [← hbranch] at hkind

/-- The spots of the clusters below a node, by their numbers. -/
structure Level (catalog : Catalog) (key : ClusterKey) (clusters : List Cluster) (s : Spot)
    (spot : Nat → Spot) : Prop where
  children : s.branch.children = below catalog key clusters
  branch : ∀ i c, clusters[i]? = some c → (spot i).branch = branchOf catalog key c
  opens : ∀ i c, clusters[i]? = some c →
    ∃ d ∈ s.children, Spot.Opens NodeKind.isSynthetic d (spot i)
  injective : ∀ i j, i < clusters.length → j < clusters.length → spot i = spot j → i = j
  complete : ∀ d ∈ s.children, ∀ t, Spot.Opens NodeKind.isSynthetic d t →
    t.branch.node.kind.isSynthetic = false → ∃ i c, clusters[i]? = some c ∧ spot i = t

theorem Level.congr {s : Spot} {spot spot' : Nat → Spot} (h : Level catalog key clusters s spot)
    (heq : ∀ i c, clusters[i]? = some c → spot' i = spot i) :
    Level catalog key clusters s spot' where
  children := h.children
  branch i c hc := by rw [heq i c hc, h.branch i c hc]
  opens i c hc := by
    rw [heq i c hc]
    exact h.opens i c hc
  injective i j hi hj hsame := by
    rw [heq i _ (List.getElem?_eq_getElem hi), heq j _ (List.getElem?_eq_getElem hj)] at hsame
    exact h.injective i j hi hj hsame
  complete d hd t ht hkind := by
    obtain ⟨i, c, hc, hspot⟩ := h.complete d hd t ht hkind
    exact ⟨i, c, hc, (heq i c hc).trans hspot⟩

theorem exists_level {s : Spot} (h : s.branch.children = below catalog key clusters) :
    ∃ spot, Level catalog key clusters s spot := by
  obtain ⟨spots, hmap, hnodup, hmem⟩ := exists_cluster_spots h
  have hlength : spots.length = clusters.length := by
    have hlengths := congrArg List.length hmap
    simpa using hlengths
  have hspot (i : Nat) (c : Cluster) (hc : clusters[i]? = some c) :
      ∃ t, spots[i]? = some t ∧ t.branch = branchOf catalog key c := by
    have hget := congrArg (·[i]?) hmap
    simp only [List.getElem?_map, hc, Option.map_some] at hget
    exact Option.map_eq_some_iff.mp hget
  refine ⟨fun i => spots[i]?.getD s, h, fun i c hc => ?_, fun i c hc => ?_, fun i j hi hj heq => ?_,
    fun d hd t ht hkind => ?_⟩
  · obtain ⟨t, ht, hbranch⟩ := hspot i c hc
    rw [ht]
    exact hbranch
  · obtain ⟨t, ht, -⟩ := hspot i c hc
    obtain ⟨d, hd, hopens, -⟩ := (hmem t).mp (List.mem_of_getElem? ht)
    rw [ht]
    exact ⟨d, hd, hopens⟩
  · rw [← hlength] at hi hj
    simp only [List.getElem?_eq_getElem hi, List.getElem?_eq_getElem hj, Option.getD_some] at heq
    exact (List.Nodup.getElem_inj_iff hnodup).mp heq
  · obtain ⟨i, hi, rfl⟩ := List.getElem_of_mem ((hmem t).mpr ⟨d, hd, ht, hkind⟩)
    have hi' := hlength ▸ hi
    exact ⟨i, clusters[i], List.getElem?_eq_getElem hi', by rw [List.getElem?_eq_getElem hi]; rfl⟩

theorem opens_synthetic {s t : Spot} (h : Spot.Opens NodeKind.isCategory s t) :
    Spot.Opens NodeKind.isSynthetic s t :=
  Relation.ReflTransGen.mono (fun _ _ hstep =>
    ⟨NodeKind.isSynthetic_of_isCategory hstep.1, hstep.2⟩) _ _ h

/-- A cluster whose type has a folder is found in it and not beside it. -/
theorem Level.mem_folder {s f : Spot} {spot : Nat → Spot} (h : Level catalog key clusters s spot)
    {t : ResourceType} (ht : catalog.type? t.id = some t) (hsingleton : t.singleton = false)
    (hunique : ∀ d ∈ s.children, ∀ g, Spot.Opens NodeKind.isSynthetic d g →
      g.branch.node.kind.typeFolder? = some t.id → g = f)
    {i : Nat} {c : Cluster} (hc : clusters[i]? = some c) (hid : c.typeId = t.id) :
    spot i ∈ f.children := by
  obtain ⟨d, hd, hopens⟩ := h.opens i c hc
  have hbranch := h.branch i c hc
  rcases opens_cases h.children hd hopens with hcategory | ⟨f', u, members, hf', hgathers, hmem⟩
  · have hkind : (spot i).branch.node.kind.isCategory = false := by simp [hbranch]
    rcases cases_of_opens h.children hd hcategory hkind with ⟨e, -, he, hnone⟩ | ⟨u, members, hu⟩
    · have htype : e.typeId = t.id := (typeId_of_branchOf_eq (he.trans hbranch)).trans hid
      rw [htype, ht, typeFolderNode?, if_neg (by simp [hsingleton])] at hnone
      simp at hnone
    · have hfolder := hu.typeFolder?
      simp [hbranch] at hfolder
  · obtain ⟨e, -, he, hebranch⟩ := hgathers.exists_of_mem_children hmem
    have hu : u.id = t.id := by
      rw [← he, typeId_of_branchOf_eq (hebranch.trans hbranch), hid]
    have hkind : f'.branch.node.kind.typeFolder? = some t.id := hu ▸ hgathers.typeFolder?
    rwa [hunique d hd f' (opens_synthetic hf') hkind] at hmem

/-- The clusters of a type that may occur more than once are what its only folder holds. -/
theorem Level.exists_folder {s : Spot} {spot : Nat → Spot}
    (h : Level catalog key clusters s spot) {c : Cluster} (hc : c ∈ clusters) {t : ResourceType}
    (ht : catalog.type? c.typeId = some t) (hsingleton : t.singleton = false) :
    ∃ f, f.branch.node.kind.typeFolder? = some t.id ∧
      (∃ d ∈ s.children, Spot.Opens NodeKind.isSynthetic d f) ∧
      (∀ d ∈ s.children, ∀ g, Spot.Opens NodeKind.isSynthetic d g →
        g.branch.node.kind.typeFolder? = some t.id → g = f) ∧
      ∀ u, u ∈ f.children ↔ ∃ i d, clusters[i]? = some d ∧ d.typeId = t.id ∧ spot i = u := by
  have hid := Catalog.id_of_type? ht
  rw [← hid] at ht
  obtain ⟨f, members, hgathers, ⟨d, hd, hopens⟩, hunique⟩ :=
    Tree.exists_folder h.children ht hsingleton ⟨c, hc, hid.symm⟩
  have hsynthetic : f.branch.node.kind.isSynthetic = true := by
    rw [hgathers.branch]
    rfl
  refine ⟨f, hgathers.typeFolder?, ⟨d, hd, opens_synthetic hopens⟩, hunique, fun u => ?_⟩
  constructor
  · intro hu
    obtain ⟨e, -, he, hbranch⟩ := hgathers.exists_of_mem_children hu
    have hentity : u.branch.node.kind.isSynthetic = false := by simp [← hbranch]
    obtain ⟨i, c', hc', rfl⟩ :=
      h.complete d hd u ((opens_synthetic hopens).tail ⟨hsynthetic, hu⟩) hentity
    refine ⟨i, c', hc', ?_, rfl⟩
    rw [← he]
    exact typeId_of_branchOf_eq ((h.branch i c' hc').symm.trans hbranch.symm)
  · rintro ⟨i, c', hc', hid', rfl⟩
    exact h.mem_folder ht hsingleton hunique hc' hid'

end FleetConsole.Tree
