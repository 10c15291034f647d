import FleetConsole.Proofs.SortedSiblings

/-! The list of the tree of a group, where no id is used twice. Right behind a node is all that is
below it, the nodes in one node are sorted, the nodes with something in them are marked as folders,
and clusters that tie are in the order they were given in. -/
namespace FleetConsole.Tree

open scoped List

/-- The second node names the first as its parent. -/
def IsParent (nodes : List Node) (p c : Node) : Prop :=
  p ∈ nodes ∧ c ∈ nodes ∧ c.parentId = some p.id

/-- The second node is below the first, directly or not. -/
abbrev IsAncestor (nodes : List Node) : Node → Node → Prop := Relation.TransGen (IsParent nodes)

structure SortedPreorder (nodes : List Node) : Prop where
  /-- Right behind a node is a block of all nodes below it. -/
  contiguous : ∀ before n after, nodes = before ++ n :: after →
    ∃ block rest, after = block ++ rest ∧ ∀ m, m ∈ block ↔ IsAncestor nodes n m
  sorted : nodes.Pairwise fun a b => a.parentId = b.parentId → a.sortKey ≤ b.sortKey
  isFolder : ∀ n ∈ nodes, n.isFolder = true ↔ ∃ m, IsParent nodes n m

theorem Spot.rel_of_mem_row {R : Branch → Branch → Prop} {branches : List Branch}
    (h : branches.Pairwise R) {start : Nat} {s t : Spot} (hs : s ∈ row start branches)
    (ht : t ∈ row start branches) (hlt : s.position < t.position) : R s.branch t.branch := by
  induction branches generalizing start with
  | nil => simp [row] at hs
  | cons b rest ih =>
    obtain ⟨hfirst, hrest⟩ := List.pairwise_cons.mp h
    rcases List.mem_cons.mp ht with rfl | ht
    · rcases List.mem_cons.mp hs with rfl | hs
      · exact absurd hlt (Nat.lt_irrefl _)
      · have hbounds := bounds_of_mem_row hs
        simp only at hlt
        omega
    · rcases List.mem_cons.mp hs with rfl | hs
      · have hmem := List.mem_map_of_mem (f := Spot.branch) ht
        rw [map_branch_row] at hmem
        exact hfirst _ hmem
      · exact ih hrest hs ht

theorem Spot.exists_mem_children {s : Spot} : (∃ c, c ∈ s.children) ↔ s.branch.children ≠ [] := by
  constructor
  · rintro ⟨c, hc⟩
    exact List.ne_nil_of_mem (branch_of_mem_children hc)
  · intro hne
    obtain ⟨b, hb⟩ := List.exists_mem_of_ne_nil _ hne
    rw [← map_branch_row (s.position + 1) s.branch.children] at hb
    obtain ⟨c, hc, -⟩ := List.mem_map.mp hb
    exact ⟨c, hc⟩

namespace Branch

theorem Ordered.of_below {s t : Spot} (hs : s.branch.Ordered) (h : Spot.Below s t) :
    t.branch.Ordered := by
  induction h with
  | refl => exact hs
  | tail _ hc ih =>
    have hchild := Spot.branch_of_mem_children hc
    cases ih with
    | intro _ _ below => exact below _ hchild

/-- The node has the place of a spot of the tree. -/
structure Lays (b : Branch) (s : Spot) (n : Node) : Prop where
  below : Spot.Below b.root s
  node : (b.flatten none)[s.position]? = some n

theorem exists_lays {b : Branch} {n : Node} {j : Nat} (h : (b.flatten none)[j]? = some n) :
    ∃ s, b.Lays s n ∧ s.position = j := by
  obtain ⟨s, hs, rfl⟩ := exists_spot (List.getElem?_eq_some_iff.mp h).1
  exact ⟨s, ⟨hs, h⟩, rfl⟩

theorem exists_lays_of_mem {b : Branch} {n : Node} (h : n ∈ b.flatten none) :
    ∃ s, b.Lays s n := by
  obtain ⟨j, hj⟩ := List.getElem?_of_mem h
  obtain ⟨s, hs, -⟩ := exists_lays hj
  exact ⟨s, hs⟩

theorem exists_lays_of_below {b : Branch} {s : Spot} (h : Spot.Below b.root s) :
    ∃ n, b.Lays s n := by
  obtain ⟨parent, hfits⟩ := exists_fits h
  exact ⟨_, h, Spot.node_of_fits hfits⟩

namespace Lays

variable {b : Branch} {s t : Spot} {n m : Node}

theorem mem (h : b.Lays s n) : n ∈ b.flatten none := List.mem_of_getElem? h.node

theorem eq (h : b.Lays s n) : n = { s.branch.node with parentId := n.parentId } := by
  obtain ⟨parent, hfits⟩ := exists_fits h.below
  rw [Option.some.inj (h.node.symm.trans (Spot.node_of_fits hfits))]

theorem id (h : b.Lays s n) : n.id = s.branch.node.id := by
  rw [h.eq]

theorem kind (h : b.Lays s n) : n.kind = s.branch.node.kind := by
  rw [h.eq]

theorem isFolder (h : b.Lays s n) : n.isFolder = s.branch.node.isFolder := by
  rw [h.eq]

theorem sortKey (h : b.Lays s n) : n.sortKey = s.branch.node.sortKey := by
  rw [h.eq]
  rfl

/-- The root has no parent, and what was put under a node names it. -/
theorem cases (h : b.Lays s n) : s = b.root ∧ n.parentId = none ∨
    ∃ p, Spot.Below b.root p ∧ s ∈ p.children ∧ n.parentId = some p.branch.node.id := by
  rcases Relation.ReflTransGen.cases_tail h.below with hroot | ⟨p, hp, hps⟩
  · have hfirst := Spot.node_of_fits b.fits_root
    rw [← hroot, h.node] at hfirst
    rw [Option.some.inj hfirst]
    exact .inl ⟨hroot, rfl⟩
  · obtain ⟨parent, hfits⟩ := exists_fits hp
    have hnode := Spot.node_of_fits (Spot.fits_of_mem_children hfits hps)
    rw [h.node] at hnode
    rw [Option.some.inj hnode]
    exact .inr ⟨p, hp, hps, rfl⟩

theorem unique (hnodup : b.ids.Nodup) (hs : b.Lays s n) (ht : b.Lays t m) (h : n.id = m.id) :
    s = t := by
  rw [← map_id_flatten b none] at hnodup
  have hsid : ((b.flatten none).map Node.id)[s.position]? = some n.id := by
    rw [List.getElem?_map, hs.node, Option.map_some]
  have htid : ((b.flatten none).map Node.id)[t.position]? = some n.id := by
    rw [List.getElem?_map, ht.node, Option.map_some, h]
  have hlt := (List.getElem?_eq_some_iff.mp hsid).1
  exact Spot.eq_of_below hs.below ht.below
    ((List.getElem?_inj hlt hnodup).mp (hsid.trans htid.symm))

/-- Where ids are not used twice, parents are named for certain. -/
theorem parentId_eq_iff (hnodup : b.ids.Nodup) (hs : b.Lays s n) (ht : b.Lays t m) :
    m.parentId = some n.id ↔ t ∈ s.children := by
  constructor
  · intro h
    rcases ht.cases with ⟨-, hnone⟩ | ⟨p, hp, hpt, hparent⟩
    · rw [hnone] at h
      cases h
    · obtain ⟨k, hk⟩ := exists_lays_of_below hp
      have hid : k.id = n.id := hk.id.trans (Option.some.inj (hparent.symm.trans h))
      rwa [← hk.unique hnodup hs hid]
  · intro h
    obtain ⟨parent, hfits⟩ := exists_fits hs.below
    have hnode := Spot.node_of_fits (Spot.fits_of_mem_children hfits h)
    rw [ht.node] at hnode
    rw [Option.some.inj hnode, hs.id]

theorem isAncestor_iff (hnodup : b.ids.Nodup) (hs : b.Lays s n) :
    IsAncestor (b.flatten none) n m ↔ ∃ t, b.Lays t m ∧ Spot.Below s t ∧ t ≠ s := by
  constructor
  · intro h
    have hchild {p c : Node} (hpc : IsParent (b.flatten none) p c) {q : Spot} (hq : b.Lays q p) :
        ∃ t, b.Lays t c ∧ t ∈ q.children := by
      obtain ⟨t, ht⟩ := exists_lays_of_mem hpc.2.1
      exact ⟨t, ht, (hq.parentId_eq_iff hnodup ht).mp hpc.2.2⟩
    have hbelow : ∃ t, b.Lays t m ∧ Spot.Below s t ∧ s.position < t.position := by
      induction h with
      | single hparent =>
        obtain ⟨t, ht, hst⟩ := hchild hparent hs
        exact ⟨t, ht, .single hst, (Spot.bounds_of_mem_children hst).1⟩
      | tail _ hparent ih =>
        obtain ⟨q, hq, hsq, hlt⟩ := ih
        obtain ⟨t, ht, hqt⟩ := hchild hparent hq
        exact ⟨t, ht, hsq.tail hqt, hlt.trans (Spot.bounds_of_mem_children hqt).1⟩
    obtain ⟨t, ht, hst, hlt⟩ := hbelow
    exact ⟨t, ht, hst, fun heq => absurd (heq ▸ hlt) (Nat.lt_irrefl _)⟩
  · rintro ⟨t, ht, hst, hne⟩
    induction hst generalizing m with
    | refl => exact absurd rfl hne
    | @tail q t hsq hqt ih =>
      obtain ⟨k, hk⟩ := exists_lays_of_below (hs.below.trans hsq)
      have hparent : IsParent (b.flatten none) k m :=
        ⟨hk.mem, ht.mem, (hk.parentId_eq_iff hnodup ht).mpr hqt⟩
      by_cases hq : q = s
      · subst hq
        rw [Option.some.inj (hk.node.symm.trans hs.node)] at hparent
        exact .single hparent
      · exact .tail (ih hk hq) hparent

/-- The list behind a node begins with the nodes of the spots below it. -/
theorem mem_block_iff (hs : b.Lays s n) :
    m ∈ s.branch.children.flatMap (flatten (some s.branch.node.id)) ↔
      ∃ t, b.Lays t m ∧ Spot.Below s t ∧ t ≠ s := by
  obtain ⟨parent, hfits⟩ := exists_fits hs.below
  have hget {k : Nat} (hk : k + 1 < s.branch.size) : (b.flatten none)[s.position + (k + 1)]? =
      (s.branch.children.flatMap (flatten (some s.branch.node.id)))[k]? := by
    rw [Spot.getElem?_of_fits hfits hk, flatten_eq, List.getElem?_cons_succ]
  constructor
  · intro hm
    obtain ⟨k, hk⟩ := List.getElem?_of_mem hm
    have hlength := length_flatten s.branch none
    rw [flatten_eq, List.length_cons] at hlength
    have hlt := (List.getElem?_eq_some_iff.mp hk).1
    obtain ⟨t, ht, hposition⟩ := Spot.exists_below (s := s) (j := s.position + (k + 1))
      (by omega) (by omega)
    refine ⟨t, ⟨hs.below.trans ht, ?_⟩, ht, ?_⟩
    · rw [hposition, hget (by omega), hk]
    · rintro rfl
      omega
  · rintro ⟨t, ht, hst, hne⟩
    have hbounds := Spot.bounds_of_below hst
    have hsize := t.branch.size_pos
    have hlt : s.position < t.position := by
      refine lt_of_le_of_ne hbounds.1 fun heq => hne ?_
      exact (Spot.eq_of_below .refl hst heq).symm
    obtain ⟨k, hk⟩ : ∃ k, t.position = s.position + (k + 1) :=
      ⟨t.position - s.position - 1, by omega⟩
    have hnode := ht.node
    rw [hk, hget (by omega)] at hnode
    exact List.mem_of_getElem? hnode

end Lays

theorem contiguous_flatten {b : Branch} (hnodup : b.ids.Nodup) {before after : List Node} {n : Node}
    (h : b.flatten none = before ++ n :: after) :
    ∃ block rest, after = block ++ rest ∧ ∀ m, m ∈ block ↔ IsAncestor (b.flatten none) n m := by
  obtain ⟨s, hs, hposition⟩ := exists_lays (b := b) (n := n) (j := before.length) (by simp [h])
  obtain ⟨parent, rest, hrest⟩ := exists_fits hs.below
  rw [flatten_eq, hposition, h, List.drop_left, List.cons_append] at hrest
  refine ⟨_, rest, (List.cons.inj hrest).2.symm, fun m => ?_⟩
  exact hs.mem_block_iff.trans (hs.isAncestor_iff hnodup).symm

theorem sorted_flatten {b : Branch} (hnodup : b.ids.Nodup) (hordered : b.Ordered) :
    (b.flatten none).Pairwise fun a c => a.parentId = c.parentId → a.sortKey ≤ c.sortKey := by
  refine List.pairwise_iff_getElem.mpr fun i j hi hj hij hparent => ?_
  obtain ⟨s, hs, rfl⟩ := exists_lays (List.getElem?_eq_getElem hi)
  obtain ⟨t, ht, rfl⟩ := exists_lays (List.getElem?_eq_getElem hj)
  rcases ht.cases with ⟨rfl, -⟩ | ⟨p, hp, hpt, hid⟩
  · exact absurd hij (Nat.not_lt_zero _)
  · obtain ⟨k, hk⟩ := exists_lays_of_below hp
    rw [← hk.id, ← hparent] at hid
    have hps := (hk.parentId_eq_iff hnodup hs).mp hid
    rw [hs.sortKey, ht.sortKey]
    cases hordered.of_below (s := b.root) hp with
    | intro _ sorted _ => exact Spot.rel_of_mem_row sorted hps hpt hij

theorem isFolder_flatten {b : Branch} (hnodup : b.ids.Nodup) (hordered : b.Ordered) {n : Node}
    (hn : n ∈ b.flatten none) : n.isFolder = true ↔ ∃ m, IsParent (b.flatten none) n m := by
  obtain ⟨s, hs⟩ := exists_lays_of_mem hn
  cases hordered.of_below (s := b.root) hs.below with
  | intro filled _ _ =>
    rw [hs.isFolder, filled, ← Spot.exists_mem_children]
    constructor
    · rintro ⟨c, hc⟩
      obtain ⟨m, hm⟩ := exists_lays_of_below (hs.below.tail hc)
      exact ⟨m, hs.mem, hm.mem, (hs.parentId_eq_iff hnodup hm).mpr hc⟩
    · rintro ⟨m, -, hm, hparent⟩
      obtain ⟨t, ht⟩ := exists_lays_of_mem hm
      exact ⟨t, (hs.parentId_eq_iff hnodup ht).mp hparent⟩

theorem sortedPreorder_flatten {b : Branch} (hnodup : b.ids.Nodup) (hordered : b.Ordered) :
    SortedPreorder (b.flatten none) where
  contiguous _ _ _ h := contiguous_flatten hnodup h
  sorted := sorted_flatten hnodup hordered
  isFolder _ hn := isFolder_flatten hnodup hordered hn

end Branch

section Pairs

variable {α : Type}

theorem pair_sublist_of_getElem? {l : List α} {i j : Nat} {a b : α} (hij : i < j)
    (ha : l[i]? = some a) (hb : l[j]? = some b) : [a, b] <+ l := by
  obtain ⟨hi, rfl⟩ := List.getElem?_eq_some_iff.mp ha
  obtain ⟨hj, rfl⟩ := List.getElem?_eq_some_iff.mp hb
  have hpair : [(⟨i, hi⟩ : Fin l.length), ⟨j, hj⟩].Pairwise (· < ·) := by simpa using hij
  exact List.map_getElem_sublist hpair

theorem not_pair_sublist_of_swap {l : List α} (hnodup : l.Nodup) {a b : α} (h : [a, b] <+ l) :
    ¬[b, a] <+ l := by
  induction l with
  | nil => simp at h
  | cons c l ih =>
    intro h'
    obtain ⟨hc, hl⟩ := List.nodup_cons.mp hnodup
    cases h with
    | cons _ h =>
      cases h' with
      | cons _ h' => exact ih hl h h'
      | cons_cons _ _ => exact hc (h.mem (by simp))
    | cons_cons _ h =>
      cases h' with
      | cons _ h' => exact hc (h'.mem (by simp))
      | cons_cons _ _ => exact hc (h.mem (by simp))

end Pairs

def NodeKind.clusterType? : NodeKind → Option TypeId
  | .cluster _ typeId _ => some typeId
  | _ => none

/-- The nodes stand for clusters of one list, in which the first comes before the second. -/
def GivenBefore (catalog : Catalog) (g : ResourceGroup) (clusters : List Cluster) (m n : Node) :
    Prop :=
  ∃ a k below c d, descend (.root g.id) clusters a = some (k, below) ∧ [c, d] <+ below ∧
    m = { clusterNode ⟨k.text⟩ (childKey k c) (catalog.type? c.typeId) c with
      parentId := m.parentId } ∧
    n = { clusterNode ⟨k.text⟩ (childKey k d) (catalog.type? d.typeId) d with
      parentId := n.parentId }

section Clusters

variable {catalog : Catalog} {g : ResourceGroup} {clusters : List Cluster}

theorem Places.exists_cluster {spot : List Nat → Spot} (h : Places catalog g clusters spot)
    {s : Spot} {n : Node} (hs : (groupBranch catalog g clusters).Lays s n) {t : TypeId}
    (ht : n.kind.clusterType? = some t) :
    ∃ a k below i c, descend (.root g.id) clusters a = some (k, below) ∧ below[i]? = some c ∧
      s = spot (a ++ [i]) ∧ s.branch = branchOf catalog k c ∧ c.typeId = t := by
  rw [hs.kind] at ht
  obtain ⟨a, ha, rfl | ⟨hsynthetic, -⟩⟩ := h.exists_address hs.below
  · cases a using List.reverseRecOn with
    | nil =>
      rw [h.root] at ht
      cases ht
    | append_singleton a i =>
      obtain ⟨k, below, c, hdescend, hc⟩ := exists_above ha
      have hbranch := (h.level a k below hdescend).branch i c hc
      rw [hbranch, kind_branchOf] at ht
      exact ⟨a, k, below, i, c, hdescend, hc, rfl, hbranch, Option.some.inj ht⟩
  · cases hkind : s.branch.node.kind <;>
      simp_all [NodeKind.clusterType?, NodeKind.isSynthetic, NodeKind.nodeClass]

/-- Clusters whose nodes have one parent are in one list. -/
theorem Places.same_list {spot : List Nat → Spot} (h : Places catalog g clusters spot)
    (hnodup : (groupBranch catalog g clusters).ids.Nodup) {a b : List Nat} {i j : Nat}
    {k k' : ClusterKey} {below below' : List Cluster} {c d : Cluster}
    (ha : descend (.root g.id) clusters a = some (k, below)) (hc : below[i]? = some c)
    (hb : descend (.root g.id) clusters b = some (k', below')) (hd : below'[j]? = some d)
    {m n : Node} (hm : (groupBranch catalog g clusters).Lays (spot (a ++ [i])) m)
    (hn : (groupBranch catalog g clusters).Lays (spot (b ++ [j])) n)
    (hparent : m.parentId = n.parentId) : a = b := by
  have hapart : (groupBranch catalog g clusters).Apart := apart_groupBranch g clusters
  have hfirst := h.enclosing?_spot ha hc
  have hsecond := h.enclosing?_spot hb hd
  rcases hm.cases with ⟨hroot, -⟩ | ⟨p, hp, hpm, hid⟩
  · rw [hroot, ← h.root, h.enclosing?_root] at hfirst
    cases hfirst
  · obtain ⟨q, hq⟩ := Branch.exists_lays_of_below hp
    rw [hparent, ← hq.id] at hid
    have hpn := (hq.parentId_eq_iff hnodup hn).mp hid
    rw [clusterTree_eq, Branch.enclosing?_of_mem_children hapart hp hpm] at hfirst
    rw [clusterTree_eq, Branch.enclosing?_of_mem_children hapart hp hpn, hfirst] at hsecond
    exact h.injective (Option.isSome_iff_exists.mpr ⟨_, ha⟩)
      (Option.isSome_iff_exists.mpr ⟨_, hb⟩) (Option.some.inj hsecond)

/-- Clusters of one type with one key are laid out in the order of their list. -/
theorem pair_sublist_clusterTree {a : List Nat} {k : ClusterKey} {below : List Cluster}
    (ha : descend (.root g.id) clusters a = some (k, below)) {c d : Cluster} (h : [c, d] <+ below)
    (htype : c.typeId = d.typeId)
    (hle : (branchOf catalog k c).node.sortKey ≤ (branchOf catalog k d).node.sortKey) :
    [(branchOf catalog k c).node.id, (branchOf catalog k d).node.id] <+
      (clusterTree catalog g clusters).map Node.id := by
  obtain ⟨above, hpair⟩ := (beside_of_descend ha h htype hle).flatten
    (some (groupNode catalog g clusters).id)
  rw [clusterTree_eq, Branch.flatten_eq, groupBranch_children, List.map_cons]
  exact (hpair.map Node.id).cons _

/-- Of clusters of one type that tie, the one laid out first was given first. -/
theorem givenBefore_of_tie (hnodup : ((clusterTree catalog g clusters).map Node.id).Nodup)
    {before between after : List Node} {m n : Node} {t : TypeId}
    (hsplit : clusterTree catalog g clusters = before ++ m :: (between ++ n :: after))
    (hparent : m.parentId = n.parentId) (hmtype : m.kind.clusterType? = some t)
    (hntype : n.kind.clusterType? = some t) (hkey : m.sortKey = n.sortKey) :
    GivenBefore catalog g clusters m n := by
  have hids : (groupBranch catalog g clusters).ids.Nodup := by
    rwa [clusterTree_eq, Branch.map_id_flatten] at hnodup
  obtain ⟨spot, hroot, hlevel⟩ := exists_spots (s := (groupBranch catalog g clusters).root)
    (groupBranch_children catalog g clusters)
  have hplaces : Places catalog g clusters spot := ⟨hroot, hlevel⟩
  have hm : (clusterTree catalog g clusters)[before.length]? = some m := by simp [hsplit]
  have hn : (clusterTree catalog g clusters)[before.length + (between.length + 1)]? = some n := by
    simp [hsplit]
  have horder := pair_sublist_of_getElem? (by omega) hm hn
  rw [clusterTree_eq] at hm hn
  obtain ⟨s, hs, hsposition⟩ := Branch.exists_lays hm
  obtain ⟨u, hu, huposition⟩ := Branch.exists_lays hn
  obtain ⟨a, k, below, i, c, ha, hc, rfl, hcbranch, hctype⟩ := hplaces.exists_cluster hs hmtype
  obtain ⟨b, k', below', j, d, hb, hd, rfl, hdbranch, hdtype⟩ := hplaces.exists_cluster hu hntype
  obtain rfl := hplaces.same_list hids ha hc hb hd hs hu hparent
  obtain ⟨rfl, rfl⟩ := Prod.mk.inj (Option.some.inj (ha.symm.trans hb))
  refine ⟨a, k, below, c, d, ha, ?_, ?_, ?_⟩
  · rcases Nat.lt_trichotomy i j with hij | rfl | hji
    · exact pair_sublist_of_getElem? hij hc hd
    · omega
    · -- then the second would stand first
      have hle : (branchOf catalog k d).node.sortKey ≤ (branchOf catalog k c).node.sortKey := by
        rw [← hcbranch, ← hdbranch, ← hs.sortKey, ← hu.sortKey, hkey]
      have hswap := pair_sublist_clusterTree ha (pair_sublist_of_getElem? hji hd hc)
        (hdtype.trans hctype.symm) hle
      rw [← hcbranch, ← hdbranch, ← hs.id, ← hu.id] at hswap
      exact absurd hswap (not_pair_sublist_of_swap hnodup (horder.map Node.id))
  · have heq := hs.eq
    rwa [hcbranch, branchOf_node] at heq
  · have heq := hu.eq
    rwa [hdbranch, branchOf_node] at heq

/-- In the tree of a group, where no id is used twice, the nodes are in preorder, siblings are
sorted, the folders are the nodes with something in them, and clusters of one type that tie are in
the order they were given in. -/
theorem clusterTree_sorted (catalog : Catalog) (g : ResourceGroup) (clusters : List Cluster)
    (hnodup : ((clusterTree catalog g clusters).map Node.id).Nodup) :
    SortedPreorder (clusterTree catalog g clusters) ∧
    ∀ before m between n after t,
      clusterTree catalog g clusters = before ++ m :: (between ++ n :: after) →
      m.parentId = n.parentId → m.kind.clusterType? = some t → n.kind.clusterType? = some t →
      m.sortKey = n.sortKey → GivenBefore catalog g clusters m n := by
  have hids : (groupBranch catalog g clusters).ids.Nodup := by
    rwa [clusterTree_eq, Branch.map_id_flatten] at hnodup
  refine ⟨?_, fun _ _ _ _ _ _ hsplit hparent hm hn hkey =>
    givenBefore_of_tie hnodup hsplit hparent hm hn hkey⟩
  rw [clusterTree_eq]
  exact Branch.sortedPreorder_flatten hids (ordered_groupBranch g clusters)

end Clusters

namespace TiedPools

def pool : ResourceType := ⟨⟨5⟩, "Pool", "Web", .service, none, false, none, []⟩

def catalog : Catalog := ⟨[pool], []⟩

def group : ResourceGroup := ⟨⟨1⟩, "Servers", none, .compatible, none, none, none⟩

def second : Cluster := ⟨⟨5⟩, "second", "Cache", 2, 2, []⟩

def first : Cluster := ⟨⟨5⟩, "first", "Cache", 1, 2, []⟩

def key : ClusterKey := .root group.id

def folder : Node := (typeFolder ⟨key.text⟩ pool []).node

/-- The node of a cluster in the folder. -/
def node (c : Cluster) : Node :=
  { clusterNode ⟨key.text⟩ (childKey key c) (some pool) c with parentId := some folder.id }

theorem shelf_eq : shelf catalog ⟨key.text⟩ (branchesOf catalog key [second, first]) =
    ⟨[typeFolder ⟨key.text⟩ pool [branchOf catalog key second, branchOf catalog key first]], []⟩ :=
  rfl

theorem sortKey_eq : (node second).sortKey = (node first).sortKey := by
  have hrank : (node second).siblingRank = (node first).siblingRank := rfl
  have hname : (node second).name = (node first).name := rfl
  rw [Node.sortKey, Node.sortKey, hrank, hname]

theorem sort_eq_self {branches : List Branch}
    (h : branches.Pairwise fun a b => a.node.sortKey ≤ b.node.sortKey) :
    Branch.sort branches = branches :=
  List.mergeSort_of_pairwise (h.imp Branch.precedes_iff.mpr)

theorem flatten_branchOf {c : Cluster} (hc : c.children = []) (parent : Option NodeId) :
    (branchOf catalog key c).flatten parent =
      [{ clusterNode ⟨key.text⟩ (childKey key c) (catalog.type? c.typeId) c with
        parentId := parent }] := by
  rw [Branch.flatten_eq, branchOf_children, hc, below_eq_nil.mpr rfl, branchOf_node]
  rfl

theorem clusterTree_tied : clusterTree catalog group [second, first] =
    [groupNode catalog group [second, first], folder] ++
      node second :: ([] ++ node first :: []) := by
  have hmembers : [branchOf catalog key second, branchOf catalog key first].Pairwise
      fun a b => a.node.sortKey ≤ b.node.sortKey := by
    rw [List.pairwise_pair, branchOf_node, branchOf_node]
    exact le_of_eq sortKey_eq
  have hbelow : below catalog key [second, first] =
      [typeFolder ⟨key.text⟩ pool [branchOf catalog key second, branchOf catalog key first]] := by
    rw [below, arrangeBelow_eq, shelf_eq, List.map_nil, List.append_nil,
      sort_eq_self (List.pairwise_singleton _ _)]
  rw [clusterTree_eq, Branch.flatten_eq, groupBranch_children]
  change _ :: (below catalog key _).flatMap _ = _
  rw [hbelow, List.flatMap_singleton, Branch.flatten_eq, typeFolder, sort_eq_self hmembers,
    List.flatMap_cons, List.flatMap_singleton, flatten_branchOf rfl, flatten_branchOf rfl]
  rfl

theorem nodup_ids : ((clusterTree catalog group [second, first]).map Node.id).Nodup := by
  rw [clusterTree_tied]
  decide

theorem clusterTree_sorted_tied_pools :
    ((clusterTree catalog group [second, first]).map Node.id).Nodup ∧
      SortedPreorder (clusterTree catalog group [second, first]) ∧
      GivenBefore catalog group [second, first] (node second) (node first) := by
  obtain ⟨hsorted, hties⟩ := clusterTree_sorted catalog group [second, first] nodup_ids
  exact ⟨nodup_ids, hsorted, hties _ _ _ _ _ ⟨5⟩ clusterTree_tied rfl rfl rfl sortKey_eq⟩

end TiedPools

end FleetConsole.Tree
