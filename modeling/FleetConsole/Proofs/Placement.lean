import FleetConsole.Proofs.NodeIds
import FleetConsole.Proofs.ParentFirst
import FleetConsole.Tree.Resources

/-! What a build of the tree of resources does with its rows: which of them it places and in which
order, and which nodes the placing of one row adds. -/
namespace FleetConsole.Tree

section Rows

theorem nodup_ids_splitRepeats (seen : List ResourceId) (rows : List Resource) :
    ((splitRepeats seen rows).1.map Resource.id).Nodup ∧
      ∀ r ∈ (splitRepeats seen rows).1, r.id ∉ seen := by
  induction rows generalizing seen with
  | nil => simp [splitRepeats]
  | cons r rest ih =>
    by_cases hr : r.id ∈ seen
    · simpa [splitRepeats, hr] using ih seen
    · obtain ⟨hnodup, hnew⟩ := ih (r.id :: seen)
      have hfirst : r.id ∉ (splitRepeats (r.id :: seen) rest).1.map Resource.id := by
        intro hmem
        obtain ⟨q, hq, hid⟩ := List.mem_map.mp hmem
        exact hnew q hq (by simp [hid])
      have hsplit : (splitRepeats seen (r :: rest)).1 =
          r :: (splitRepeats (r.id :: seen) rest).1 := by simp [splitRepeats, hr]
      rw [hsplit, List.map_cons]
      refine ⟨List.nodup_cons.mpr ⟨hfirst, hnodup⟩, List.forall_mem_cons.mpr ⟨hr, ?_⟩⟩
      exact fun q hq hseen => hnew q hq (List.mem_cons_of_mem _ hseen)

theorem nodup_ids_firstRows (rows : List Resource) :
    ((firstRows rows).map Resource.id).Nodup :=
  (nodup_ids_splitRepeats [] rows).1

theorem splitRepeats_fst_of_nodup {seen : List ResourceId} {rows : List Resource}
    (hnodup : (rows.map Resource.id).Nodup) (hnew : ∀ r ∈ rows, r.id ∉ seen) :
    (splitRepeats seen rows).1 = rows := by
  induction rows generalizing seen with
  | nil => rfl
  | cons r rest ih =>
    obtain ⟨hr, hrest⟩ := List.nodup_cons.mp hnodup
    have htail : (splitRepeats (r.id :: seen) rest).1 = rest := by
      refine ih hrest fun q hq => ?_
      have hne : q.id ≠ r.id := fun h => hr (h ▸ List.mem_map_of_mem hq)
      simp [hne, hnew q (List.mem_cons_of_mem _ hq)]
    simp [splitRepeats, hnew r List.mem_cons_self, htail]

theorem firstRows_of_nodup {rows : List Resource} (h : (rows.map Resource.id).Nodup) :
    firstRows rows = rows :=
  splitRepeats_fst_of_nodup h (by simp)

/-- The rows that get a node, in the order in which they are placed. -/
def placedRows (rows : List Resource) : List Resource :=
  (Surroundings.placement rows).ordered.filterMap ((firstRows rows)[·]?)

/-- The rows on or below a circle of parents. -/
def circularRows (rows : List Resource) : List Resource :=
  (Surroundings.placement rows).cyclic.filterMap ((firstRows rows)[·]?)

/-- The parent links of the rows, by position. -/
def rowParent (rows : List Resource) : Nat → Option Nat :=
  ParentFirst.parentAt ((firstRows rows).map fun r => (r.id, r.parentId))

theorem placement_eq (rows : List Resource) :
    Surroundings.placement rows =
      ParentFirst.arrange (rowParent rows) (List.range (firstRows rows).length) := by
  rw [Surroundings.placement, ParentFirst.ofLinks_eq, List.length_map]
  rfl

theorem rowParent_of_getElem? {rows : List Resource} {i : Nat} {r : Resource}
    (h : (firstRows rows)[i]? = some r) :
    rowParent rows i =
      r.parentId.bind (ParentFirst.lastIndex ((firstRows rows).map Resource.id)) := by
  have hids : ((firstRows rows).map fun r => (r.id, r.parentId)).map (·.1) =
      (firstRows rows).map Resource.id := by simp
  rw [rowParent, ParentFirst.parentAt, List.getElem?_map, h, hids]
  rfl

theorem getElem?_of_lastIndex_ids {rows : List Resource} {p : ResourceId} {i : Nat}
    (h : ParentFirst.lastIndex (rows.map Resource.id) p = some i) :
    ∃ r, rows[i]? = some r ∧ r.id = p := by
  have hget := ParentFirst.getElem?_of_lastIndex h
  rw [List.getElem?_map] at hget
  exact Option.map_eq_some_iff.mp hget

theorem filterMap_getElem?_range {α : Type} (l : List α) :
    (List.range l.length).filterMap (l[·]?) = l := by
  induction l with
  | nil => rfl
  | cons a l ih =>
    rw [List.length_cons, List.range_succ_eq_map, List.filterMap_cons]
    simpa [List.filterMap_map, Function.comp_def] using ih

theorem filter_filterMap_eq {α β : Type} (f : α → Option β) (P : β → Bool) (l : List α) :
    (l.filterMap f).filter P = (l.filter fun a => (f a).any P).filterMap f := by
  induction l with
  | nil => rfl
  | cons a l ih =>
    cases h : f a with
    | none => simp [h, ih]
    | some b => cases hb : P b <;> simp [h, hb, ih]

/-- Every first row is placed or left out. -/
theorem placedRows_append_perm (rows : List Resource) :
    (placedRows rows ++ circularRows rows).Perm (firstRows rows) := by
  have hperm : ((Surroundings.placement rows).ordered ++
      (Surroundings.placement rows).cyclic).Perm (List.range (firstRows rows).length) := by
    rw [placement_eq]
    exact ParentFirst.arrange_perm _
  have hrows := hperm.filterMap ((firstRows rows)[·]?)
  rwa [List.filterMap_append, filterMap_getElem?_range] at hrows

theorem nodup_ids_placedRows_append (rows : List Resource) :
    ((placedRows rows ++ circularRows rows).map Resource.id).Nodup :=
  ((placedRows_append_perm rows).map Resource.id).nodup_iff.mpr (nodup_ids_firstRows rows)

theorem nodup_ids_placedRows (rows : List Resource) :
    ((placedRows rows).map Resource.id).Nodup := by
  have h := nodup_ids_placedRows_append rows
  rw [List.map_append] at h
  exact h.of_append_left

theorem mem_firstRows_of_mem_placedRows {rows : List Resource} {r : Resource}
    (h : r ∈ placedRows rows) : r ∈ firstRows rows :=
  (placedRows_append_perm rows).subset (List.mem_append_left _ h)

/-- Rows with one parent are placed in the order in which they are given. -/
theorem filter_placedRows_append {parent : Option ResourceId} {P : Resource → Bool}
    (hP : ∀ r, P r = true → r.parentId = parent) (rows : List Resource) :
    (placedRows rows).filter P ++ (circularRows rows).filter P = (firstRows rows).filter P := by
  have hsame : ∀ i, ((firstRows rows)[i]?).any P = true → rowParent rows i =
      parent.bind (ParentFirst.lastIndex ((firstRows rows).map Resource.id)) := by
    intro i hi
    cases hr : (firstRows rows)[i]? with
    | none => simp [hr] at hi
    | some r =>
      rw [rowParent_of_getElem? hr, hP r (by simpa [hr] using hi)]
  have harrange := ParentFirst.filter_arrange hsame (List.range (firstRows rows).length)
  rw [← placement_eq] at harrange
  calc (placedRows rows).filter P ++ (circularRows rows).filter P
      = ((List.range (firstRows rows).length).filter
          fun i => ((firstRows rows)[i]?).any P).filterMap ((firstRows rows)[·]?) := by
        rw [placedRows, circularRows, filter_filterMap_eq, filter_filterMap_eq,
          ← List.filterMap_append, harrange]
    _ = (firstRows rows).filter P := by
        rw [← filter_filterMap_eq, filterMap_getElem?_range]

theorem parent_of_mem_circularRows {rows : List Resource} {r : Resource}
    (h : r ∈ circularRows rows) :
    ∃ p, r.parentId = some p ∧ p ∈ (circularRows rows).map Resource.id := by
  obtain ⟨i, hi, hr⟩ := List.mem_filterMap.mp h
  rw [placement_eq] at hi
  obtain ⟨j, hj, hcyclic⟩ := ParentFirst.parent_of_mem_cyclic _ hi
  rw [rowParent_of_getElem? hr] at hj
  obtain ⟨p, hp, hindex⟩ := Option.bind_eq_some_iff.mp hj
  obtain ⟨q, hq, rfl⟩ := getElem?_of_lastIndex_ids hindex
  rw [← placement_eq] at hcyclic
  exact ⟨q.id, hp, List.mem_map_of_mem (List.mem_filterMap.mpr ⟨j, hcyclic, hq⟩)⟩

/-- A row comes after the row of its parent. -/
theorem parent_mem_before_placedRows {rows before after : List Resource} {r : Resource}
    {p : ResourceId} (h : placedRows rows = before ++ r :: after) (hp : r.parentId = some p)
    (hrow : p ∈ (firstRows rows).map Resource.id) : p ∈ before.map Resource.id := by
  obtain ⟨front, back, hordered, hfront, hback⟩ := List.filterMap_eq_append_iff.mp h
  obtain ⟨skipped, i, rest, rfl, hskipped, hr, -⟩ := List.filterMap_eq_cons_iff.mp hback
  cases hindex : ParentFirst.lastIndex ((firstRows rows).map Resource.id) p with
  | none => exact absurd hrow (ParentFirst.lastIndex_eq_none_iff.mp hindex)
  | some j =>
    obtain ⟨q, hq, rfl⟩ := getElem?_of_lastIndex_ids hindex
    have hparent : rowParent rows i = some j := by
      rw [rowParent_of_getElem? hr, hp]
      exact hindex
    have hwait : j ∈ List.range (firstRows rows).length :=
      List.mem_range.mpr (List.getElem?_eq_some_iff.mp hq).1
    have hmem : j ∈ front ++ skipped := by
      rw [placement_eq, ← List.append_assoc] at hordered
      exact ParentFirst.parent_mem_before _ hordered hparent hwait
    have hrows : q ∈ (front ++ skipped).filterMap ((firstRows rows)[·]?) :=
      List.mem_filterMap.mpr ⟨j, hmem, hq⟩
    rw [List.filterMap_append, List.filterMap_eq_nil_iff.mpr hskipped, hfront,
      List.append_nil] at hrows
    exact List.mem_map_of_mem hrows

theorem parentId_ne_self_of_mem_placedRows {rows : List Resource} {r : Resource}
    (h : r ∈ placedRows rows) : r.parentId ≠ some r.id := by
  intro hself
  obtain ⟨before, after, hsplit⟩ := List.append_of_mem h
  have hbefore := parent_mem_before_placedRows hsplit hself
    (List.mem_map_of_mem (mem_firstRows_of_mem_placedRows h))
  have hnodup := nodup_ids_placedRows rows
  rw [hsplit, List.map_append, List.map_cons] at hnodup
  exact (List.nodup_append.mp hnodup).2.2 _ hbefore _ List.mem_cons_self rfl

/-- The children of a resource are all placed, in their order, unless the resource is on or below
a circle of parents. -/
theorem filter_placedRows_eq {rows : List Resource} {p : ResourceId}
    (h : p ∈ (placedRows rows).map Resource.id ∨ p ∉ (firstRows rows).map Resource.id) :
    (placedRows rows).filter (·.parentId = some p) =
      (firstRows rows).filter (·.parentId = some p) := by
  have hparent : ∀ r : Resource, decide (r.parentId = some p) = true → r.parentId = some p := by
    simp
  have hsplit := filter_placedRows_append hparent rows
  have hnone : (circularRows rows).filter (·.parentId = some p) = [] := by
    refine List.filter_eq_nil_iff.mpr fun r hr hchild => ?_
    obtain ⟨q, hq, hcircular⟩ := parent_of_mem_circularRows hr
    obtain rfl : q = p := Option.some.inj (hq.symm.trans (hparent r hchild))
    rcases h with hplaced | habsent
    · have hnodup := nodup_ids_placedRows_append rows
      rw [List.map_append] at hnodup
      exact (List.nodup_append.mp hnodup).2.2 _ hplaced _ hcircular rfl
    · obtain ⟨c, hc, hid⟩ := List.mem_map.mp hcircular
      exact habsent (hid ▸ List.mem_map_of_mem
        ((placedRows_append_perm rows).subset (List.mem_append_right _ hc)))
  rwa [hnone, List.append_nil] at hsplit

/-- Rows without a parent are all placed, in their order. -/
theorem filter_placedRows_roots (rows : List Resource) :
    (placedRows rows).filter (·.parentId.isNone) = (firstRows rows).filter (·.parentId.isNone) := by
  have hparent : ∀ r : Resource, r.parentId.isNone = true → r.parentId = none := by simp
  have hsplit := filter_placedRows_append hparent rows
  have hnone : (circularRows rows).filter (·.parentId.isNone) = [] := by
    refine List.filter_eq_nil_iff.mpr fun r hr hroot => ?_
    obtain ⟨p, hp, -⟩ := parent_of_mem_circularRows hr
    simp [hp] at hroot
  rwa [hnone, List.append_nil] at hsplit

end Rows

/-- Each node lies in the one before it, and the first in `parent`. -/
def Linked : (parent : NodeId) → List Node → Prop
  | _, [] => True
  | parent, n :: rest => n.parentId = some parent ∧ Linked n.id rest

/-- The last node of a chain, or `parent` if there is none. -/
def innermost : (parent : NodeId) → List Node → NodeId
  | parent, [] => parent
  | _, n :: rest => innermost n.id rest

/-- The folders of sub-categories, outermost first. -/
def categoryNodes (anchor : ResourceId) : (parent : NodeId) → List SubCategory → List Node
  | _, [] => []
  | parent, sub :: inner =>
    categoryNode anchor parent sub :: categoryNodes anchor (NodeId.subCategory sub.id anchor) inner

theorem linked_categoryNodes (anchor : ResourceId) (parent : NodeId) (subs : List SubCategory) :
    Linked parent (categoryNodes anchor parent subs) := by
  induction subs generalizing parent with
  | nil => trivial
  | cons sub inner ih => exact ⟨rfl, ih _⟩

theorem isFolderBelow_of_mem_categoryNodes {anchor : ResourceId} {parent : NodeId}
    {subs : List SubCategory} {n : Node} (h : n ∈ categoryNodes anchor parent subs) :
    NodeId.IsFolderBelow anchor n.id := by
  induction subs generalizing parent with
  | nil => simp [categoryNodes] at h
  | cons sub inner ih =>
    rcases List.mem_cons.mp h with rfl | hinner
    · exact .subCategory sub.id
    · exact ih hinner

theorem nodeClass_of_mem_categoryNodes {anchor : ResourceId} {parent : NodeId}
    {subs : List SubCategory} {n : Node} (h : n ∈ categoryNodes anchor parent subs) :
    n.kind.nodeClass = .category := by
  induction subs generalizing parent with
  | nil => simp [categoryNodes] at h
  | cons sub inner ih =>
    rcases List.mem_cons.mp h with rfl | hinner
    · rfl
    · exact ih hinner

/-- A node in a chain lies in `parent` or in another node of the chain. -/
theorem Linked.parent_mem {parent : NodeId} {nodes : List Node} (h : Linked parent nodes)
    {n : Node} (hn : n ∈ nodes) :
    ∃ q, n.parentId = some q ∧ (q = parent ∨ q ∈ nodes.map Node.id) := by
  induction nodes generalizing parent with
  | nil => simp at hn
  | cons first rest ih =>
    rcases List.mem_cons.mp hn with rfl | hrest
    · exact ⟨parent, h.1, .inl rfl⟩
    · obtain ⟨q, hq, hmem⟩ := ih h.2 hrest
      refine ⟨q, hq, .inr ?_⟩
      rcases hmem with rfl | hmem
      · exact List.mem_cons_self
      · exact List.mem_cons_of_mem _ hmem

theorem innermost_mem (parent : NodeId) (nodes : List Node) :
    innermost parent nodes = parent ∨ innermost parent nodes ∈ nodes.map Node.id := by
  induction nodes generalizing parent with
  | nil => exact .inl rfl
  | cons n rest ih =>
    right
    rcases ih n.id with h | h
    · simp [innermost, h]
    · exact List.mem_cons_of_mem _ h

namespace Surroundings

variable (s : Surroundings) (batch : List Resource)

/-- Adds a node whose id is neither among the nodes nor shown. -/
def insertMissing (nodes : List Node) (n : Node) : List Node :=
  if nodes.any (·.id = n.id) || s.rendered.contains n.id then nodes else nodes ++ [n]

theorem nodes_addMissing (b : Build) (n : Node) :
    (s.addMissing b n).nodes = s.insertMissing b.nodes n := by
  unfold addMissing insertMissing isPresent Build.hasNode
  split <;> rfl

@[simp] theorem nodes_remarkEnding (b : Build) (typeId : TypeId) (ending : Catalog.ChainEnd) :
    (remarkEnding b typeId ending).nodes = b.nodes := by
  cases ending <;> simp [remarkEnding]

theorem addFolders_spec (anchor : ResourceId) (parent : NodeId) (subs : List SubCategory)
    (b : Build) :
    (s.addFolders anchor parent subs b).1.nodes =
        (categoryNodes anchor parent subs).foldl s.insertMissing b.nodes ∧
      (s.addFolders anchor parent subs b).2 =
        innermost parent (categoryNodes anchor parent subs) := by
  induction subs generalizing parent b with
  | nil => exact ⟨rfl, rfl⟩
  | cons sub inner ih =>
    have h := ih (NodeId.subCategory sub.id anchor) (s.addMissing b (categoryNode anchor parent sub))
    rw [nodes_addMissing] at h
    exact h

/-- The folders between a row and the resource `p` above it, outermost first. -/
def foldersBelow (p : ResourceId) (r : Resource) : List Node :=
  match s.catalog.type? r.typeId with
  | none => []
  | some t =>
    if !t.singleton then [s.autoGroupNode batch p t]
    else
      match t.subCategoryId with
      | none => []
      | some sub => categoryNodes p (NodeId.resource p) (s.catalog.chain sub).members.reverse

/-- Below a resource a row is put in no folder, in that of its type, or in a chain of
sub-categories. -/
theorem foldersBelow_shape (p : ResourceId) (r : Resource) : s.foldersBelow batch p r = [] ∨
    (∃ t, s.catalog.type? t.id = some t ∧ s.foldersBelow batch p r = [s.autoGroupNode batch p t]) ∨
    ∃ sub, s.foldersBelow batch p r =
      categoryNodes p (NodeId.resource p) (s.catalog.chain sub).members.reverse := by
  unfold foldersBelow
  split
  · exact .inl rfl
  · rename_i t ht
    split
    · rw [← Catalog.id_of_type? ht] at ht
      exact .inr (.inl ⟨t, ht, rfl⟩)
    · split
      · exact .inl rfl
      · exact .inr (.inr ⟨_, rfl⟩)

theorem cases_of_mem_foldersBelow {p : ResourceId} {r : Resource} {n : Node}
    (h : n ∈ s.foldersBelow batch p r) :
    (∃ t, s.catalog.type? t.id = some t ∧ n = s.autoGroupNode batch p t) ∨
      ∃ sub, n ∈ categoryNodes p (NodeId.resource p) (s.catalog.chain sub).members.reverse := by
  rcases s.foldersBelow_shape batch p r with hnone | ⟨t, ht, hauto⟩ | ⟨sub, hchain⟩
  · simp [hnone] at h
  · rw [hauto] at h
    exact .inl ⟨t, ht, List.mem_singleton.mp h⟩
  · exact .inr ⟨sub, hchain ▸ h⟩

/-- The folders above a row that hangs under `anchor`. -/
def folders (r : Resource) : (anchor : Option ResourceId) → List Node
  | none => []
  | some p => s.foldersBelow batch p r

/-- The node of a row that hangs under `anchor`. -/
def ownNode (r : Resource) : (anchor : Option ResourceId) → Node
  | none => s.resourceNode none r
  | some p => s.resourceNode (some (innermost (NodeId.resource p) (s.foldersBelow batch p r))) r

/-- The resource that a row hangs under: its parent, if that is present. -/
def anchor? (b : Build) (r : Resource) : Option ResourceId :=
  r.parentId.filter fun p => s.isPresent b (NodeId.resource p)

theorem hang_of_absent {b : Build} {r : Resource} (h : s.anchor? b r = none) :
    (s.hang batch b r).1.nodes = b.nodes ∧ (s.hang batch b r).2 = none := by
  cases hparent : r.parentId with
  | none => simp [hang, hparent]
  | some p =>
    have habsent : s.isPresent b (NodeId.resource p) = false := by
      simpa [anchor?, hparent] using h
    simp [hang, hparent, habsent]

theorem hang_of_present {b : Build} {r : Resource} {p : ResourceId}
    (h : s.anchor? b r = some p) :
    (s.hang batch b r).1.nodes = (s.foldersBelow batch p r).foldl s.insertMissing b.nodes ∧
      (s.hang batch b r).2 = some (innermost (NodeId.resource p) (s.foldersBelow batch p r)) := by
  obtain ⟨hparent, hpresent⟩ := Option.filter_eq_some_iff.mp h
  rw [hang, hparent]
  cases ht : s.catalog.type? r.typeId with
  | none => simp [hpresent, foldersBelow, ht, innermost]
  | some t =>
    cases hsingle : t.singleton with
    | false =>
      simp [hpresent, foldersBelow, ht, hsingle, innermost, nodes_addMissing, autoGroupNode]
    | true =>
      cases hsub : t.subCategoryId with
      | none => simp [hpresent, foldersBelow, ht, hsingle, hsub, innermost]
      | some sub =>
        obtain ⟨hnodes, hfolder⟩ := s.addFolders_spec p (NodeId.resource p)
          (s.catalog.chain sub).members.reverse
          (remarkEnding b t.id (s.catalog.chain sub).ending)
        simp [hpresent, foldersBelow, ht, hsingle, hsub, hnodes, hfolder]

/-- Placing a row adds the folders that are missing, then the node of the row. -/
theorem nodes_place (b : Build) (r : Resource) :
    (s.place batch b r).nodes =
      (s.folders batch r (s.anchor? b r)).foldl s.insertMissing b.nodes ++
        [s.ownNode batch r (s.anchor? b r)] := by
  cases h : s.anchor? b r with
  | none =>
    obtain ⟨hnodes, hparent⟩ := s.hang_of_absent batch h
    simp [place, folders, ownNode, hnodes, hparent]
  | some p =>
    obtain ⟨hnodes, hparent⟩ := s.hang_of_present batch h
    simp [place, folders, ownNode, hnodes, hparent]

theorem linked_foldersBelow (p : ResourceId) (r : Resource) :
    Linked (NodeId.resource p) (s.foldersBelow batch p r) := by
  rcases s.foldersBelow_shape batch p r with hnone | ⟨t, -, hauto⟩ | ⟨sub, hchain⟩
  · rw [hnone]
    trivial
  · rw [hauto]
    exact ⟨rfl, trivial⟩
  · rw [hchain]
    exact linked_categoryNodes p _ _

theorem isFolderBelow_of_mem {p : ResourceId} {r : Resource} {n : Node}
    (h : n ∈ s.foldersBelow batch p r) : NodeId.IsFolderBelow p n.id := by
  rcases s.cases_of_mem_foldersBelow batch h with ⟨t, -, rfl⟩ | ⟨sub, hcategory⟩
  · exact .autoGroup _
  · exact isFolderBelow_of_mem_categoryNodes hcategory

theorem find?_insertMissing (nodes : List Node) (n : Node) (id : NodeId) :
    (s.insertMissing nodes n).find? (·.id = id) =
      (nodes.find? (·.id = id)).or (if id ∈ s.rendered then none else [n].find? (·.id = id)) := by
  unfold insertMissing
  by_cases hid : n.id = id
  · subst hid
    by_cases hmem : n.id ∈ nodes.map Node.id
    · obtain ⟨m, hm, hmid⟩ := List.mem_map.mp hmem
      have hany : nodes.any (·.id = n.id) = true :=
        List.any_eq_true.mpr ⟨m, hm, by simpa using hmid⟩
      have hsome : (nodes.find? (·.id = n.id)).isSome := by simpa using ⟨m, hm, hmid⟩
      obtain ⟨found, hfound⟩ := Option.isSome_iff_exists.mp hsome
      simp [hany, hfound]
    · have hany : nodes.any (·.id = n.id) = false := by simpa using hmem
      by_cases hshown : n.id ∈ s.rendered <;> simp [hany, hshown]
  · have hsingle : [n].find? (·.id = id) = none := by simp [hid]
    split
    · simp [hid]
    · rw [List.find?_append, hsingle]
      simp

theorem find?_foldl_insertMissing (nodes added : List Node) (id : NodeId) :
    (added.foldl s.insertMissing nodes).find? (·.id = id) =
      (nodes.find? (·.id = id)).or
        (if id ∈ s.rendered then none else added.find? (·.id = id)) := by
  induction added generalizing nodes with
  | nil => simp
  | cons n added ih =>
    rw [List.foldl_cons, ih, find?_insertMissing, Option.or_assoc]
    by_cases hshown : id ∈ s.rendered
    · simp [hshown]
    · simp only [hshown, if_false]
      rw [← List.find?_append, List.singleton_append]

/-- The nodes that a row under `anchor` has for the tree: its folders, unless they are shown, and
its own node. -/
def offered (r : Resource) (anchor : Option ResourceId) : List Node :=
  (s.folders batch r anchor).filter (·.id ∉ s.rendered) ++ [s.ownNode batch r anchor]

/-- Of the nodes offered with one id, the first enters the tree. -/
theorem find?_nodes_place (b : Build) (r : Resource) (id : NodeId) :
    (s.place batch b r).nodes.find? (·.id = id) =
      (b.nodes.find? (·.id = id)).or
        ((s.offered batch r (s.anchor? b r)).find? (·.id = id)) := by
  have hfilter : ((s.folders batch r (s.anchor? b r)).filter (·.id ∉ s.rendered)).find?
      (·.id = id) =
        if id ∈ s.rendered then none
        else (s.folders batch r (s.anchor? b r)).find? (·.id = id) := by
    rw [List.find?_filter]
    by_cases hshown : id ∈ s.rendered
    · simp only [hshown, if_true, List.find?_eq_none]
      intro n _
      by_cases hn : n.id = id
      · simp [hn, hshown]
      · simp [hn]
    · simp only [hshown, if_false]
      congr 1
      funext n
      by_cases hn : n.id = id
      · simp [hn, hshown]
      · simp [hn]
  rw [nodes_place, List.find?_append, find?_foldl_insertMissing, offered, List.find?_append,
    hfilter, Option.or_assoc]

@[simp] theorem ownNode_id (r : Resource) (anchor : Option ResourceId) :
    (s.ownNode batch r anchor).id = NodeId.resource r.id := by
  cases anchor <;> rfl

theorem folders_id_ne_resource {r : Resource} {anchor : Option ResourceId} {n : Node}
    (h : n ∈ s.folders batch r anchor) (q : ResourceId) : n.id ≠ NodeId.resource q := by
  cases anchor with
  | none => simp [folders] at h
  | some p => exact (s.isFolderBelow_of_mem batch h).ne_resource q

theorem resource_mem_ids_foldl {nodes added : List Node} {q : ResourceId}
    (h : ∀ n ∈ added, n.id ≠ NodeId.resource q) :
    NodeId.resource q ∈ (added.foldl s.insertMissing nodes).map Node.id ↔
      NodeId.resource q ∈ nodes.map Node.id := by
  have hmem (l : List Node) : NodeId.resource q ∈ l.map Node.id ↔
      (l.find? (·.id = NodeId.resource q)).isSome := by simp
  have hnone : added.find? (·.id = NodeId.resource q) = none :=
    List.find?_eq_none.mpr (by simpa using h)
  rw [hmem, hmem, find?_foldl_insertMissing, hnone]
  simp

theorem resource_mem_ids_place (b : Build) (r : Resource) (q : ResourceId) :
    NodeId.resource q ∈ (s.place batch b r).nodes.map Node.id ↔
      NodeId.resource q ∈ b.nodes.map Node.id ∨ q = r.id := by
  have hfolders : ∀ n ∈ s.folders batch r (s.anchor? b r), n.id ≠ NodeId.resource q :=
    fun n hn => s.folders_id_ne_resource batch hn q
  rw [nodes_place, List.map_append, List.mem_append, s.resource_mem_ids_foldl hfolders]
  simp

/-- The build before its first row is placed. -/
def beginning (rows : List Resource) : Build where
  nodes := []
  diagnostics := (splitRepeats [] rows).2.map Diagnostic.duplicateEntity ++
    (circularRows rows).map fun r => Diagnostic.parentCycle r.id

/-- The build after some rows are placed. -/
def placing (rows placed : List Resource) : Build :=
  placed.foldl (s.place (firstRows rows)) (beginning rows)

theorem build_nodes (rows : List Resource) :
    (s.build rows).nodes = disambiguate s.catalog (s.placing rows (placedRows rows)).nodes := rfl

theorem placing_append_singleton (rows placed : List Resource) (r : Resource) :
    s.placing rows (placed ++ [r]) = s.place (firstRows rows) (s.placing rows placed) r := by
  simp [placing]

/-- The resources with a node are those placed. -/
theorem resource_mem_ids_placing (rows placed : List Resource) (q : ResourceId) :
    NodeId.resource q ∈ (s.placing rows placed).nodes.map Node.id ↔
      q ∈ placed.map Resource.id := by
  induction placed using List.reverseRecOn with
  | nil => simp [placing, beginning]
  | append_singleton placed r ih =>
    rw [placing_append_singleton, resource_mem_ids_place, ih]
    simp

/-- The resource that a row of the batch hangs under: its parent, if that is among the rows or
shown. -/
def anchorAmong (rows : List Resource) (r : Resource) : Option ResourceId :=
  r.parentId.filter fun p =>
    p ∈ (firstRows rows).map Resource.id || NodeId.resource p ∈ s.rendered

/-- As parents are placed first, what a row hangs under does not depend on how far the build is. -/
theorem anchor?_placing {rows before after : List Resource} {r : Resource}
    (h : placedRows rows = before ++ r :: after) :
    s.anchor? (s.placing rows before) r = s.anchorAmong rows r := by
  cases hparent : r.parentId with
  | none => simp [anchor?, anchorAmong, hparent]
  | some p =>
    have hnode : (s.placing rows before).hasNode (NodeId.resource p) = true ↔
        p ∈ (firstRows rows).map Resource.id := by
      have hany : (s.placing rows before).hasNode (NodeId.resource p) = true ↔
          NodeId.resource p ∈ (s.placing rows before).nodes.map Node.id := by
        simp [Build.hasNode]
      rw [hany, resource_mem_ids_placing]
      constructor
      · intro hbefore
        obtain ⟨q, hq, rfl⟩ := List.mem_map.mp hbefore
        refine List.mem_map_of_mem (mem_firstRows_of_mem_placedRows ?_)
        rw [h]
        exact List.mem_append_left _ hq
      · exact parent_mem_before_placedRows h hparent
    have hpresent : s.isPresent (s.placing rows before) (NodeId.resource p) =
        (decide (p ∈ (firstRows rows).map Resource.id) || NodeId.resource p ∈ s.rendered) := by
      rw [isPresent, List.contains_eq_mem]
      congr 1
      exact Bool.eq_iff_iff.mpr (hnode.trans decide_eq_true_iff.symm)
    simp only [anchor?, anchorAmong, hparent, Option.filter_some, hpresent]

/-- Everything that the first `placed` rows have for the tree. -/
def offers (rows placed : List Resource) : List Node :=
  placed.flatMap fun r => s.offered (firstRows rows) r (s.anchorAmong rows r)

/-- Of the nodes offered with one id, the first is in the tree. -/
theorem find?_placing {rows before after : List Resource} (h : placedRows rows = before ++ after)
    (id : NodeId) :
    (s.placing rows before).nodes.find? (·.id = id) =
      (s.offers rows before).find? (·.id = id) := by
  induction before using List.reverseRecOn generalizing after with
  | nil => rfl
  | append_singleton before r ih =>
    have hsplit : placedRows rows = before ++ r :: after := by simpa using h
    rw [placing_append_singleton, find?_nodes_place, ih hsplit, s.anchor?_placing hsplit]
    simp [offers]

end Surroundings

end FleetConsole.Tree
