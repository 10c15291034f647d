import FleetConsole.Proofs.RowAccounting

/-! Which node a node of the tree hangs under. What a build has placed before it does not matter:
the parent of a resource is read off the row and the catalog, if the resource that the row names is
there at all, and that of a folder off its id. -/
namespace FleetConsole

namespace Catalog

variable {c : Catalog}

theorem head?_chain (id : SubCategoryId) : (c.chain id).members.head? = c.subCategory? id := by
  cases h : c.subCategory? id with
  | none => rw [chain, members_of_none h, List.head?_nil]
  | some s => rw [chain, members_of_some h, List.head?_cons]

/-- Where a resource below `p` is filed: in the automatic folder of its type, in the folder of the
type's sub-category, or in `p` itself. -/
def fileUnder (c : Catalog) (p : ResourceId) (r : Resource) : Tree.NodeId :=
  match c.type? r.typeId with
  | none => Tree.NodeId.resource p
  | some t =>
    if t.singleton then Tree.folderAbove p (t.subCategoryId.bind c.subCategory?)
    else Tree.NodeId.autoGroup r.typeId p

end Catalog

namespace Tree.Surroundings

variable {s : Surroundings}

section Folders

variable {batch : List Resource} {p : ResourceId} {r : Resource}

theorem innermost_foldersBelow :
    innermost (NodeId.resource p) (s.foldersBelow batch p r) = s.catalog.fileUnder p r := by
  unfold foldersBelow Catalog.fileUnder
  cases ht : s.catalog.type? r.typeId with
  | none => rfl
  | some t =>
    cases hsingle : t.singleton with
    | false => simp [hsingle, autoGroupNode, innermost, Catalog.id_of_type? ht]
    | true =>
      cases hsub : t.subCategoryId with
      | none => simp [hsingle, innermost, folderAbove, hsub]
      | some sub =>
        simp [hsingle, innermost_categoryNodes_reverse, Catalog.head?_chain, hsub]

theorem autoGroup_of_mem_foldersBelow {n : Node} (h : n ∈ s.foldersBelow batch p r) {t : TypeId}
    {anchor : NodeId} {category : Option Category} {name : Option String}
    (hkind : n.kind = .autoGroup t anchor category name) :
    n.id = NodeId.autoGroup t p ∧ anchor = NodeId.resource p ∧
      n.parentId = some (NodeId.resource p) := by
  have hparent := s.parentId_of_autoGroup_mem h (by rw [hkind]; rfl)
  rcases s.cases_of_mem_foldersBelow batch h with ⟨t, -, rfl⟩ | ⟨sub, hcategory⟩
  · cases hkind
    exact ⟨rfl, rfl, hparent⟩
  · have hclass := nodeClass_of_mem_categoryNodes hcategory
    simp [hkind, NodeKind.nodeClass] at hclass

theorem category_of_mem_foldersBelow (hacyclic : s.catalog.Acyclic) {n : Node}
    (h : n ∈ s.foldersBelow batch p r) {sub : Option SubCategoryId} {anchor : NodeId}
    (hkind : n.kind = .category sub anchor) :
    ∃ c, s.catalog.subCategory? c.id = some c ∧ sub = some c.id ∧
      n.id = NodeId.subCategory c.id p ∧ anchor = NodeId.resource p ∧
      n.parentId = some (folderAbove p (c.parentId.bind s.catalog.subCategory?)) := by
  rcases foldersBelow_cases hacyclic h with ⟨t, -, rfl⟩ | ⟨c, hc, rfl⟩
  · cases hkind
  · cases hkind
    exact ⟨c, hc, rfl, rfl, rfl, rfl⟩

end Folders

section Nodes

variable {rows : List Resource}

theorem resource_mem_ids_build {q : ResourceId} :
    NodeId.resource q ∈ (s.build rows).nodes.map Node.id ↔
      q ∈ (placedRows rows).map Resource.id := by
  constructor
  · exact id_mem_placedRows_of_mem_build
  · intro h
    obtain ⟨r, hr, rfl⟩ := List.mem_map.mp h
    obtain ⟨n, hn, hshows⟩ := exists_shows (s := s) hr
    exact hshows.id ▸ List.mem_map_of_mem hn

/-- A row that is placed hangs under its parent if this is in the tree in the end or shown. -/
theorem anchorAmong_of_mem_placedRows {r : Resource} (hr : r ∈ placedRows rows) {p : ResourceId} :
    s.anchorAmong rows r = some p ↔ r.parentId = some p ∧
      (NodeId.resource p ∈ (s.build rows).nodes.map Node.id ∨ NodeId.resource p ∈ s.rendered) := by
  rw [anchorAmong_eq_some_iff, resource_mem_ids_build]
  refine and_congr_right fun hp => or_congr_left ⟨fun hrow => ?_, fun hplaced => ?_⟩
  · obtain ⟨before, after, hsplit⟩ := List.append_of_mem hr
    have hbefore := parent_mem_before_placedRows hsplit hp hrow
    rw [hsplit, List.map_append]
    exact List.mem_append_left _ hbefore
  · obtain ⟨q, hq, rfl⟩ := List.mem_map.mp hplaced
    exact List.mem_map_of_mem (mem_firstRows_of_mem_placedRows hq)

theorem mem_build_cases {n : Node} (h : n ∈ (s.build rows).nodes) :
    (∃ p r, ∃ m ∈ s.foldersBelow (firstRows rows) p r,
      m.id = n.id ∧ m.parentId = n.parentId ∧ m.kind = n.kind) ∨
      ∃ r ∈ placedRows rows, n = s.ownNode (firstRows rows) r (s.anchorAmong rows r) := by
  rw [build_nodes, disambiguate_eq_map] at h
  obtain ⟨m, hm, rfl⟩ := List.mem_map.mp h
  rcases cases_of_mem_offers (s.mem_offers_of_mem_placing hm) with ⟨p, r, hfolder⟩ | ⟨r, hr, rfl⟩
  · exact .inl ⟨p, r, m, hfolder, by simp, by simp, by simp⟩
  · exact .inr ⟨r, hr, s.distinguished_ownNode _ _ _ _⟩

theorem exists_row_of_isResource {n : Node} (h : n ∈ (s.build rows).nodes)
    (hn : n.kind.isResource = true) :
    ∃ r ∈ placedRows rows, n = s.ownNode (firstRows rows) r (s.anchorAmong rows r) := by
  rcases mem_build_cases h with ⟨p, r, m, hm, -, -, hkind⟩ | hown
  · have hfolder := isResource_of_isSynthetic (unlocked_of_mem_foldersBelow hm).1
    rw [hkind, hn] at hfolder
    cases hfolder
  · exact hown

theorem exists_folder_of_not_isResource {n : Node} (h : n ∈ (s.build rows).nodes)
    (hn : n.kind.isResource = false) :
    ∃ p r, ∃ m ∈ s.foldersBelow (firstRows rows) p r,
      m.id = n.id ∧ m.parentId = n.parentId ∧ m.kind = n.kind := by
  rcases mem_build_cases h with hfolder | ⟨r, -, rfl⟩
  · exact hfolder
  · rw [(shows_ownNode _ _ _).isResource] at hn
    cases hn

theorem parentId_ownNode {r : Resource} {anchor : Option ResourceId} :
    (s.ownNode (firstRows rows) r anchor).parentId =
      anchor.map fun p => s.catalog.fileUnder p r := by
  cases anchor with
  | none => rfl
  | some p => exact congrArg some innermost_foldersBelow

end Nodes

@[simp] theorem catalog_foldl_withAnchor (s : Surroundings) (anchors : List Resource) :
    (anchors.foldl withAnchor s).catalog = s.catalog := by
  induction anchors generalizing s with
  | nil => rfl
  | cons a anchors ih => exact ih (s.withAnchor a)

/-- A resource hangs under nothing if it names no parent, or one that is neither in the tree nor
shown, and else where the catalog files it below its parent. Automatic folders lie in the resource of
their members' parent, and where no sub-category is above itself, the folder of each lies in that of
the sub-category above it. -/
theorem parents_by_catalog (catalog : Catalog) (locked : List ResourceId) (rendered : List NodeId)
    (anchors rows : List Resource) :
    let tree := (anchors.foldl withAnchor
      (((ofCatalog catalog).withLocked locked).withRendered rendered)).build rows
    let There (id : NodeId) : Prop := id ∈ tree.nodes.map Node.id ∨ id ∈ rendered ∨
      id ∈ anchors.map fun a => NodeId.resource a.id
    (∀ n ∈ tree.nodes, ∀ id typeId category availability,
      n.kind = .resource id typeId category availability →
        ∃ r, rows.find? (·.id = id) = some r ∧ r.typeId = typeId ∧
          (n.parentId = none ↔ ∀ p, r.parentId = some p → ¬There (NodeId.resource p)) ∧
          ∀ p, r.parentId = some p → There (NodeId.resource p) →
            n.parentId = some (catalog.fileUnder p r)) ∧
    (∀ n ∈ tree.nodes, ∀ typeId anchor category name,
      n.kind = .autoGroup typeId anchor category name →
        ∃ p, n.id = NodeId.autoGroup typeId p ∧ anchor = NodeId.resource p ∧
          n.parentId = some (NodeId.resource p)) ∧
    (catalog.Acyclic → ∀ n ∈ tree.nodes, ∀ sub anchor, n.kind = .category sub anchor →
      ∃ c p, catalog.subCategory? c.id = some c ∧ sub = some c.id ∧
        n.id = NodeId.subCategory c.id p ∧ anchor = NodeId.resource p ∧
        n.parentId = some (folderAbove p (c.parentId.bind catalog.subCategory?))) := by
  intro tree There
  set s := anchors.foldl withAnchor
    (((ofCatalog catalog).withLocked locked).withRendered rendered) with hs
  have hcatalog : s.catalog = catalog := catalog_foldl_withAnchor _ _
  have hthere (id : NodeId) : There id ↔ id ∈ tree.nodes.map Node.id ∨ id ∈ s.rendered := by
    rw [hs, mem_rendered_foldl_withAnchor]
    rfl
  refine ⟨fun n hn id typeId category availability hkind => ?_,
    fun n hn typeId anchor category name hkind => ?_, fun hacyclic n hn sub anchor hkind => ?_⟩
  · obtain ⟨r, hr, rfl⟩ := exists_row_of_isResource hn (by rw [hkind]; rfl)
    rw [(shows_ownNode _ r _).kind] at hkind
    cases hkind
    have hanchor (p : ResourceId) := anchorAmong_of_mem_placedRows (s := s) hr (p := p)
    refine ⟨r, (mem_placedRows_iff.mp hr).1, rfl, ?_, fun p hp hpresent => ?_⟩
    · rw [parentId_ownNode, Option.map_eq_none_iff, Option.eq_none_iff_forall_ne_some]
      refine forall_congr' fun p => ?_
      rw [Ne, hanchor, not_and, hthere]
    · rw [parentId_ownNode, (hanchor p).mpr ⟨hp, (hthere _).mp hpresent⟩, hcatalog]
      rfl
  · obtain ⟨p, r, m, hm, hid, hparent, hsame⟩ :=
      exists_folder_of_not_isResource hn (by rw [hkind]; rfl)
    rw [← hid, ← hparent]
    exact ⟨p, autoGroup_of_mem_foldersBelow hm (hsame.trans hkind)⟩
  · obtain ⟨p, r, m, hm, hid, hparent, hsame⟩ :=
      exists_folder_of_not_isResource hn (by rw [hkind]; rfl)
    rw [← hid, ← hparent, ← hcatalog]
    rw [← hcatalog] at hacyclic
    obtain ⟨c, hc⟩ := category_of_mem_foldersBelow hacyclic hm (hsame.trans hkind)
    exact ⟨c, p, hc⟩

namespace DefaultSource

open Inventory

/-- The demonstration with a type that a server has once and that is filed two folders deep. -/
def catalog : Catalog :=
  Demo.catalog.insertType (Demo.type 7 "Default Datasource" "JBossAS7" .service true (some 3) [])

def source : Resource := Demo.resource 10014 "DefaultDS" Demo.server1 7 .up

def tree : Build := ([Demo.server1].foldl withAnchor
  (((ofCatalog catalog).withLocked []).withRendered [])).build [source]

def subsystems : Node :=
  categoryNode Demo.server1.id (NodeId.resource Demo.server1.id) ⟨⟨2⟩, "Subsystems", none⟩

def datasources : Node :=
  categoryNode Demo.server1.id subsystems.id ⟨⟨3⟩, "Datasources", some ⟨2⟩⟩

def sourceNode : Node := (ofCatalog catalog).resourceNode (some datasources.id) source

theorem nodes_tree : tree.nodes = [subsystems, datasources, sourceNode] := by
  cbv

theorem parents_by_catalog_default_source :
    catalog.Acyclic ∧ datasources ∈ tree.nodes ∧ sourceNode ∈ tree.nodes ∧
      datasources.parentId = some (NodeId.subCategory ⟨2⟩ Demo.server1.id) ∧
      sourceNode.parentId = some (NodeId.subCategory ⟨3⟩ Demo.server1.id) := by
  have hacyclic : catalog.Acyclic := Reversed.catalog_acyclic
  have hfolder : datasources ∈ tree.nodes := by simp [nodes_tree]
  have hmember : sourceNode ∈ tree.nodes := by simp [nodes_tree]
  obtain ⟨hresources, -, hfolders⟩ := parents_by_catalog catalog [] [] [Demo.server1] [source]
  refine ⟨hacyclic, hfolder, hmember, ?_, ?_⟩
  · obtain ⟨c, p, hc, hsub, -, hanchor, hparent⟩ := hfolders hacyclic _ hfolder _ _ rfl
    obtain rfl : Demo.server1.id = p := NodeId.resource_inj.mp hanchor
    rw [← Option.some.inj hsub] at hc
    obtain rfl : (⟨⟨3⟩, "Datasources", some ⟨2⟩⟩ : SubCategory) = c := Option.some.inj hc
    exact hparent
  · obtain ⟨r, hr, -, -, hparent⟩ := hresources _ hmember _ _ _ _ rfl
    obtain rfl : source = r := Option.some.inj hr
    exact hparent Demo.server1.id rfl (.inr (.inr List.mem_cons_self))

end DefaultSource

end Tree.Surroundings

end FleetConsole
