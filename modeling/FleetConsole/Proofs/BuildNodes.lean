import FleetConsole.Proofs.TreeOrder

/-! Which node a build has under an id. A resource has its own node; a folder below a resource is
made for the first of the children that needs it, so it depends on nothing but these children. -/
namespace FleetConsole.Tree

section Keys

theorem find?_key_of_mem {α K : Type} [DecidableEq K] {key : α → K} {l : List α}
    (h : (l.map key).Nodup) {a : α} (ha : a ∈ l) :
    l.find? (fun b => key b = key a) = some a := by
  cases hfind : l.find? (fun b => key b = key a) with
  | none => simpa using List.find?_eq_none.mp hfind a ha
  | some b =>
    have hkey : key b = key a := by simpa using List.find?_some hfind
    rw [List.inj_on_of_nodup_map h (List.mem_of_find?_eq_some hfind) ha hkey]

theorem findSome?_ite {α β : Type} (P : α → Prop) [DecidablePred P] (f : α → β) (l : List α) :
    l.findSome? (fun a => if P a then some (f a) else none) =
      (l.find? fun a => decide (P a)).map f := by
  induction l with
  | nil => rfl
  | cons a l ih => by_cases ha : P a <;> simp [ha, ih]

theorem findSome?_congr {α β : Type} {f g : α → Option β} {l : List α}
    (h : ∀ a ∈ l, f a = g a) : l.findSome? f = l.findSome? g := by
  induction l with
  | nil => rfl
  | cons a l ih =>
    obtain ⟨ha, hl⟩ := List.forall_mem_cons.mp h
    rw [List.findSome?_cons, List.findSome?_cons, ha, ih hl]

/-- What gives nothing need not be searched. -/
theorem findSome?_filter {α β : Type} {f : α → Option β} {P : α → Bool} {l : List α}
    (h : ∀ a ∈ l, P a = false → f a = none) : (l.filter P).findSome? f = l.findSome? f := by
  induction l with
  | nil => rfl
  | cons a l ih =>
    obtain ⟨ha, hl⟩ := List.forall_mem_cons.mp h
    cases hP : P a with
    | true => rw [List.filter_cons_of_pos hP, List.findSome?_cons, List.findSome?_cons, ih hl]
    | false =>
      rw [List.filter_cons_of_neg (by simp [hP]), List.findSome?_cons, ha hP, ih hl]

end Keys

namespace Surroundings

variable (s : Surroundings)

theorem anchorAmong_eq_some_iff {rows : List Resource} {r : Resource} {p : ResourceId} :
    s.anchorAmong rows r = some p ↔ r.parentId = some p ∧
      (p ∈ (firstRows rows).map Resource.id ∨ NodeId.resource p ∈ s.rendered) := by
  rw [anchorAmong, Option.filter_eq_some_iff, Bool.or_eq_true, decide_eq_true_iff,
    decide_eq_true_iff]

theorem find?_offers (rows placed : List Resource) (id : NodeId) :
    (s.offers rows placed).find? (·.id = id) =
      placed.findSome? fun r =>
        (s.offered (firstRows rows) r (s.anchorAmong rows r)).find? (·.id = id) :=
  List.find?_flatMap

theorem find?_offered_resource (batch : List Resource) (r : Resource)
    (anchor : Option ResourceId) (q : ResourceId) :
    (s.offered batch r anchor).find? (·.id = NodeId.resource q) =
      if r.id = q then some (s.ownNode batch r anchor) else none := by
  have hfolders : ((s.folders batch r anchor).filter (·.id ∉ s.rendered)).find?
      (·.id = NodeId.resource q) = none := by
    refine List.find?_eq_none.mpr fun n hn => ?_
    simpa using s.folders_id_ne_resource batch (List.mem_of_mem_filter hn) q
  rw [offered, List.find?_append, hfolders]
  by_cases hq : r.id = q <;> simp [hq]

theorem find?_offered_folder (batch : List Resource) (r : Resource)
    (anchor : Option ResourceId) {p : ResourceId} {id : NodeId} (hid : NodeId.IsFolderBelow p id) :
    (s.offered batch r anchor).find? (·.id = id) =
      if id ∈ s.rendered then none else (s.folders batch r anchor).find? (·.id = id) := by
  have hown : [s.ownNode batch r anchor].find? (·.id = id) = none := by
    simpa using (hid.ne_resource r.id).symm
  rw [offered, List.find?_append, hown, Option.or_none, List.find?_filter]
  by_cases hshown : id ∈ s.rendered
  · rw [if_pos hshown, List.find?_eq_none]
    intro n _
    simp only [decide_eq_true_eq, not_and]
    rintro hn rfl
    exact hn hshown
  · rw [if_neg hshown]
    congr 1
    funext n
    by_cases hn : n.id = id <;> simp [hn, hshown]

/-- The node of an id: what is offered first under it, told apart from folders with its name. -/
theorem node?_build (rows : List Resource) (id : NodeId) :
    (s.build rows).node? id = ((s.offers rows (placedRows rows)).find? (·.id = id)).map
      (distinguished s.catalog (s.placing rows (placedRows rows)).nodes) := by
  rw [Build.node?, build_nodes, disambiguate_eq_map, List.find?_map,
    ← s.find?_placing (List.append_nil _).symm]
  congr 2
  funext n
  simp

theorem mem_nodes_build_iff {rows : List Resource} {n : Node} :
    n ∈ (s.build rows).nodes ↔ (s.build rows).node? n.id = some n :=
  ⟨find?_key_of_mem (s.inOrder_build rows).nodup, List.mem_of_find?_eq_some⟩

theorem distinguished_ownNode (nodes : List Node) (batch : List Resource) (r : Resource)
    (anchor : Option ResourceId) :
    distinguished s.catalog nodes (s.ownNode batch r anchor) = s.ownNode batch r anchor := by
  cases anchor <;> rfl

/-- A resource that is placed has its own node. -/
theorem node?_resource {rows : List Resource} {r : Resource} (h : r ∈ placedRows rows) :
    (s.build rows).node? (NodeId.resource r.id) =
      some (s.ownNode (firstRows rows) r (s.anchorAmong rows r)) := by
  rw [node?_build, find?_offers]
  simp only [find?_offered_resource]
  rw [findSome?_ite, find?_key_of_mem (nodup_ids_placedRows rows) h]
  exact congrArg some (s.distinguished_ownNode _ _ _ _)

theorem node?_resource_eq_none {rows : List Resource} {q : ResourceId}
    (h : q ∉ (placedRows rows).map Resource.id) :
    (s.build rows).node? (NodeId.resource q) = none := by
  rw [node?_build, find?_offers]
  simp only [find?_offered_resource]
  rw [findSome?_ite, List.find?_eq_none.mpr (by simpa using h)]
  rfl

/-- What the tree has under the id of a folder is decided by the children of one resource. -/
theorem find?_offers_folder {rows placed : List Resource} {p : ResourceId} {id : NodeId}
    (hid : NodeId.IsFolderBelow p id)
    (hp : p ∈ (firstRows rows).map Resource.id ∨ NodeId.resource p ∈ s.rendered) :
    (s.offers rows placed).find? (·.id = id) =
      if id ∈ s.rendered then none
      else (placed.filter (·.parentId = some p)).findSome? fun r =>
        (s.foldersBelow (firstRows rows) p r).find? (·.id = id) := by
  have hother : ∀ r ∈ placed, decide (r.parentId = some p) = false →
      (s.offered (firstRows rows) r (s.anchorAmong rows r)).find? (·.id = id) = none := by
    intro r _ hparent
    have hne : r.parentId ≠ some p := by simpa using hparent
    have hfolders : (s.folders (firstRows rows) r (s.anchorAmong rows r)).find? (·.id = id) =
        none := by
      refine List.find?_eq_none.mpr fun n hn hnid => ?_
      cases hanchor : s.anchorAmong rows r with
      | none => simp [hanchor, folders] at hn
      | some q =>
        rw [hanchor] at hn
        have hbelow := s.isFolderBelow_of_mem _ hn
        rw [show n.id = id by simpa using hnid] at hbelow
        obtain rfl := hbelow.anchor_unique hid
        exact hne (s.anchorAmong_eq_some_iff.mp hanchor).1
    rw [s.find?_offered_folder _ _ _ hid, hfolders, ite_self]
  rw [find?_offers, ← findSome?_filter hother]
  by_cases hshown : id ∈ s.rendered
  · rw [if_pos hshown, List.findSome?_eq_none_iff]
    intro r _
    rw [s.find?_offered_folder _ _ _ hid, if_pos hshown]
  · rw [if_neg hshown]
    refine findSome?_congr fun r hr => ?_
    have hparent : r.parentId = some p := by simpa using (List.mem_filter.mp hr).2
    rw [s.find?_offered_folder _ _ _ hid, if_neg hshown,
      s.anchorAmong_eq_some_iff.mpr ⟨hparent, hp⟩]
    rfl

theorem mem_offers_of_mem_build {rows : List Resource} {n : Node}
    (h : n ∈ (s.build rows).nodes) :
    ∃ r ∈ placedRows rows, ∃ m ∈ s.offered (firstRows rows) r (s.anchorAmong rows r),
      n.id = m.id ∧ n.parentId = m.parentId := by
  rw [mem_nodes_build_iff, node?_build] at h
  obtain ⟨m, hm, rfl⟩ := Option.map_eq_some_iff.mp h
  obtain ⟨r, hr, hoffered⟩ := List.mem_flatMap.mp (List.mem_of_find?_eq_some hm)
  exact ⟨r, hr, m, hoffered, by simp, by simp⟩

/-- A node without a parent is that of a resource which hangs under nothing. Any other lies among
the folders and children of one resource, as its parent does unless this is the resource. -/
theorem parentId_of_mem_build {rows : List Resource} {n : Node} (h : n ∈ (s.build rows).nodes) :
    ∃ r ∈ placedRows rows,
      (s.anchorAmong rows r = none ∧ n.id = NodeId.resource r.id ∧ n.parentId = none) ∨
      ∃ p, s.anchorAmong rows r = some p ∧
        (n.id = NodeId.resource r.id ∨ NodeId.IsFolderBelow p n.id) ∧
        ∃ q, n.parentId = some q ∧ (q = NodeId.resource p ∨ NodeId.IsFolderBelow p q) := by
  obtain ⟨r, hr, m, hm, hid, hparent⟩ := s.mem_offers_of_mem_build h
  rw [hid, hparent]
  refine ⟨r, hr, ?_⟩
  rcases List.mem_append.mp hm with hfolder | hown
  · have hfolder := List.mem_of_mem_filter hfolder
    cases hanchor : s.anchorAmong rows r with
    | none => simp [hanchor, folders] at hfolder
    | some p =>
      rw [hanchor] at hfolder
      obtain ⟨q, hq, hmem⟩ := (s.linked_foldersBelow (firstRows rows) p r).parent_mem hfolder
      refine .inr ⟨p, rfl, .inr (s.isFolderBelow_of_mem _ hfolder), q, hq, hmem.imp_right ?_⟩
      intro hfolders
      obtain ⟨f, hf, rfl⟩ := List.mem_map.mp hfolders
      exact s.isFolderBelow_of_mem _ hf
  · obtain rfl := List.mem_singleton.mp hown
    cases hanchor : s.anchorAmong rows r with
    | none => exact .inl ⟨rfl, by simp, rfl⟩
    | some p =>
      refine .inr ⟨p, rfl, .inl (by simp), _, rfl, ?_⟩
      refine (innermost_mem _ (s.foldersBelow (firstRows rows) p r)).imp_right fun hfolders => ?_
      obtain ⟨f, hf, hfid⟩ := List.mem_map.mp hfolders
      exact hfid ▸ s.isFolderBelow_of_mem _ hf

theorem parentId_of_autoGroup_mem {batch : List Resource} {p : ResourceId} {r : Resource} {n : Node}
    (h : n ∈ s.foldersBelow batch p r) (hclass : n.kind.nodeClass = .autoGroup) :
    n.parentId = some (NodeId.resource p) := by
  rcases s.cases_of_mem_foldersBelow batch h with ⟨t, -, rfl⟩ | ⟨sub, hcategory⟩
  · rfl
  · rw [nodeClass_of_mem_categoryNodes hcategory] at hclass
    cases hclass

theorem mem_offers_of_mem_placing {rows : List Resource} {n : Node}
    (h : n ∈ (s.placing rows (placedRows rows)).nodes) : n ∈ s.offers rows (placedRows rows) := by
  have hnodup := (s.inOrder_placing (List.append_nil (placedRows rows)).symm).nodup
  have hfind := find?_key_of_mem hnodup h
  rw [s.find?_placing (List.append_nil _).symm] at hfind
  exact List.mem_of_find?_eq_some hfind

/-- An automatic folder lies directly in the resource it is named after. -/
theorem autoGroup_of_mem_placing {rows : List Resource} {n : Node}
    (h : n ∈ (s.placing rows (placedRows rows)).nodes) (hclass : n.kind.nodeClass = .autoGroup) :
    ∃ p, NodeId.IsFolderBelow p n.id ∧ n.parentId = some (NodeId.resource p) := by
  obtain ⟨r, -, hoffered⟩ := List.mem_flatMap.mp (s.mem_offers_of_mem_placing h)
  rcases List.mem_append.mp hoffered with hfolder | hown
  · have hfolder := List.mem_of_mem_filter hfolder
    cases hanchor : s.anchorAmong rows r with
    | none => simp [hanchor, folders] at hfolder
    | some p =>
      rw [hanchor] at hfolder
      exact ⟨p, s.isFolderBelow_of_mem _ hfolder, s.parentId_of_autoGroup_mem hfolder hclass⟩
  · obtain rfl := List.mem_singleton.mp hown
    cases hanchor : s.anchorAmong rows r <;>
      simp [hanchor, ownNode, resourceNode, NodeKind.nodeClass] at hclass

end Surroundings

/-- Two builds in which the children of `p` are the same and find the same around them. -/
structure SameChildren (p : ResourceId) (s₁ s₂ : Surroundings) (rows₁ rows₂ : List Resource) :
    Prop where
  catalog : s₁.catalog = s₂.catalog
  locked : s₁.locked = s₂.locked
  shown₁ : p ∈ (firstRows rows₁).map Resource.id ∨ NodeId.resource p ∈ s₁.rendered
  shown₂ : p ∈ (firstRows rows₂).map Resource.id ∨ NodeId.resource p ∈ s₂.rendered
  children : (placedRows rows₁).filter (·.parentId = some p) =
    (placedRows rows₂).filter (·.parentId = some p)
  groupName : s₁.backingGroupName (firstRows rows₁) p = s₂.backingGroupName (firstRows rows₂) p

namespace SameChildren

open Surroundings

variable {p : ResourceId} {s₁ s₂ : Surroundings} {rows₁ rows₂ : List Resource}
  (h : SameChildren p s₁ s₂ rows₁ rows₂)

include h

theorem foldersBelow_eq (r : Resource) :
    s₁.foldersBelow (firstRows rows₁) p r = s₂.foldersBelow (firstRows rows₂) p r := by
  unfold foldersBelow autoGroupNode
  rw [h.catalog, h.groupName]

/-- A child has one node in both builds. -/
theorem node?_child {r : Resource} (hr : r ∈ placedRows rows₁) (hparent : r.parentId = some p) :
    (s₁.build rows₁).node? (NodeId.resource r.id) =
      (s₂.build rows₂).node? (NodeId.resource r.id) := by
  have hmem : r ∈ (placedRows rows₂).filter (·.parentId = some p) := by
    rw [← h.children]
    exact List.mem_filter.mpr ⟨hr, by simpa using hparent⟩
  rw [node?_resource _ hr, node?_resource _ (List.mem_of_mem_filter hmem),
    s₁.anchorAmong_eq_some_iff.mpr ⟨hparent, h.shown₁⟩,
    s₂.anchorAmong_eq_some_iff.mpr ⟨hparent, h.shown₂⟩]
  simp only [ownNode, resourceNode, h.foldersBelow_eq r, h.catalog, h.locked]

theorem find?_offers {id : NodeId} (hid : NodeId.IsFolderBelow p id) (hnew₁ : id ∉ s₁.rendered)
    (hnew₂ : id ∉ s₂.rendered) :
    (s₁.offers rows₁ (placedRows rows₁)).find? (·.id = id) =
      (s₂.offers rows₂ (placedRows rows₂)).find? (·.id = id) := by
  rw [s₁.find?_offers_folder hid h.shown₁, s₂.find?_offers_folder hid h.shown₂,
    if_neg hnew₁, if_neg hnew₂, h.children]
  exact findSome?_congr fun r _ => by rw [h.foldersBelow_eq r]

theorem isSome_node?_folder {id : NodeId} (hid : NodeId.IsFolderBelow p id)
    (hnew₁ : id ∉ s₁.rendered) (hnew₂ : id ∉ s₂.rendered) :
    ((s₁.build rows₁).node? id).isSome = ((s₂.build rows₂).node? id).isSome := by
  rw [node?_build, node?_build, Option.isSome_map, Option.isSome_map,
    h.find?_offers hid hnew₁ hnew₂]

variable (hnew₁ : ∀ id, NodeId.IsFolderBelow p id → id ∉ s₁.rendered)
  (hnew₂ : ∀ id, NodeId.IsFolderBelow p id → id ∉ s₂.rendered)

include hnew₁ hnew₂

/-- The automatic folders below `p` that go by one name are as many in both builds. -/
theorem countP_named (name : String) :
    (s₁.placing rows₁ (placedRows rows₁)).nodes.countP
        (isAutoGroupNamed (some (NodeId.resource p)) name) =
      (s₂.placing rows₂ (placedRows rows₂)).nodes.countP
        (isAutoGroupNamed (some (NodeId.resource p)) name) := by
  have hnodup (s : Surroundings) (rows : List Resource) :
      ((s.placing rows (placedRows rows)).nodes.map Node.id).Nodup :=
    (s.inOrder_placing (List.append_nil (placedRows rows)).symm).nodup
  have hmem (s : Surroundings) (rows : List Resource) (n : Node) :
      n ∈ (s.placing rows (placedRows rows)).nodes ↔
        (s.offers rows (placedRows rows)).find? (·.id = n.id) = some n := by
    rw [← s.find?_placing (List.append_nil _).symm]
    exact ⟨find?_key_of_mem (hnodup s rows), List.mem_of_find?_eq_some⟩
  have hfolder (s : Surroundings) (rows : List Resource) (n : Node)
      (hn : n ∈ (s.placing rows (placedRows rows)).nodes)
      (hnamed : isAutoGroupNamed (some (NodeId.resource p)) name n = true) :
      NodeId.IsFolderBelow p n.id := by
    simp only [isAutoGroupNamed, Bool.and_eq_true, decide_eq_true_eq] at hnamed
    obtain ⟨q, hq, hparent⟩ := s.autoGroup_of_mem_placing hn hnamed.1.1
    obtain rfl : p = q := by simpa [hnamed.1.2] using hparent
    exact hq
  have hperm : ((s₁.placing rows₁ (placedRows rows₁)).nodes.filter
      (isAutoGroupNamed (some (NodeId.resource p)) name)).Perm
      ((s₂.placing rows₂ (placedRows rows₂)).nodes.filter
        (isAutoGroupNamed (some (NodeId.resource p)) name)) := by
    refine (List.perm_ext_iff_of_nodup ((hnodup s₁ rows₁).of_map.filter _)
      ((hnodup s₂ rows₂).of_map.filter _)).mpr fun n => ?_
    rw [List.mem_filter, List.mem_filter]
    refine and_congr_left_iff.mpr fun hnamed => ?_
    constructor
    · intro hn
      have hid := hfolder s₁ rows₁ n hn hnamed
      rw [hmem, ← h.find?_offers hid (hnew₁ _ hid) (hnew₂ _ hid)]
      exact (hmem s₁ rows₁ n).mp hn
    · intro hn
      have hid := hfolder s₂ rows₂ n hn hnamed
      rw [hmem, h.find?_offers hid (hnew₁ _ hid) (hnew₂ _ hid)]
      exact (hmem s₂ rows₂ n).mp hn
  rw [List.countP_eq_length_filter, List.countP_eq_length_filter, hperm.length_eq]

/-- If no folder below `p` is shown yet, both builds make the same ones. -/
theorem node?_folder {id : NodeId} (hid : NodeId.IsFolderBelow p id) :
    (s₁.build rows₁).node? id = (s₂.build rows₂).node? id := by
  rw [node?_build, node?_build, h.find?_offers hid (hnew₁ id hid) (hnew₂ id hid)]
  refine Option.map_congr fun n hn => ?_
  have hmem : n ∈ (s₂.placing rows₂ (placedRows rows₂)).nodes := by
    rw [← s₂.find?_placing (List.append_nil _).symm] at hn
    exact List.mem_of_find?_eq_some hn
  obtain rfl : n.id = id := by simpa using List.find?_some hn
  cases hkind : n.kind with
  | autoGroup typeId anchor category name =>
    obtain ⟨q, hq, hparent⟩ := s₂.autoGroup_of_mem_placing hmem (by rw [hkind]; rfl)
    obtain rfl := hq.anchor_unique hid
    simp only [distinguished, hkind, hparent, h.catalog, h.countP_named hnew₁ hnew₂]
  | _ => simp only [distinguished, hkind]

end SameChildren

end FleetConsole.Tree
