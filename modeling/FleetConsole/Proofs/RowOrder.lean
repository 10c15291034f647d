import FleetConsole.Inventory.Demo
import FleetConsole.Proofs.BuildNodes
import FleetConsole.Proofs.SubCategories

/-! The order of the rows of a batch decides the order of its tree and nothing else. Each folder is
made for the first row that needs it, but whichever row that is, the folder is the same: along links
without a circle, what is above a sub-category depends on the sub-category only. -/
namespace FleetConsole

namespace Tree

section Folders

theorem autoGroup_injective {t u : TypeId} {p q : ResourceId}
    (h : NodeId.autoGroup t p = NodeId.autoGroup u q) : t = u := by
  have htext := (append_underscore_inj (underscore_notMem_idText t.val)
    (underscore_notMem_idText p.val) (NodeId.mk.inj h)).1
  have hval : t.val = u.val := idText_injective htext
  exact congrArg TypeId.mk hval

theorem subCategory_injective {t u : SubCategoryId} {p q : ResourceId}
    (h : NodeId.subCategory t p = NodeId.subCategory u q) : t = u := by
  have htext := (append_underscore_inj (underscore_notMem_idText t.val)
    (underscore_notMem_idText p.val) (NodeId.mk.inj h)).1
  have hval : t.val = u.val := idText_injective htext
  exact congrArg SubCategoryId.mk hval

/-- Where the folder of a sub-category lies below a resource: in that of its parent, if this is
known. -/
def folderAbove (p : ResourceId) (above : Option SubCategory) : NodeId :=
  match above with
  | some s => NodeId.subCategory s.id p
  | none => NodeId.resource p

theorem categoryNodes_append (p : ResourceId) (parent : NodeId) (outer inner : List SubCategory) :
    categoryNodes p parent (outer ++ inner) = categoryNodes p parent outer ++
      categoryNodes p (innermost parent (categoryNodes p parent outer)) inner := by
  induction outer generalizing parent with
  | nil => rfl
  | cons s outer ih =>
    rw [List.cons_append, categoryNodes, categoryNodes, ih]
    rfl

theorem innermost_append (parent : NodeId) (outer inner : List Node) :
    innermost parent (outer ++ inner) = innermost (innermost parent outer) inner := by
  induction outer generalizing parent with
  | nil => rfl
  | cons n outer ih => exact ih n.id

theorem innermost_categoryNodes_reverse (p : ResourceId) (chain : List SubCategory) :
    innermost (NodeId.resource p) (categoryNodes p (NodeId.resource p) chain.reverse) =
      folderAbove p chain.head? := by
  cases chain with
  | nil => rfl
  | cons s rest =>
    rw [List.reverse_cons, categoryNodes_append, innermost_append]
    rfl

/-- The folder of a sub-category is the same in every chain. -/
theorem mem_categoryNodes {catalog : Catalog} {p : ResourceId} {chain : List SubCategory}
    (h : catalog.Climbs chain) {n : Node}
    (hn : n ∈ categoryNodes p (NodeId.resource p) chain.reverse) :
    ∃ s, catalog.subCategory? s.id = some s ∧
      n = categoryNode p (folderAbove p (s.parentId.bind catalog.subCategory?)) s := by
  induction chain with
  | nil => simp [categoryNodes] at hn
  | cons s rest ih =>
    obtain ⟨hs, hhead, hrest⟩ := h
    rw [List.reverse_cons, categoryNodes_append, innermost_categoryNodes_reverse,
      List.mem_append] at hn
    rcases hn with houter | hlast
    · exact ih hrest houter
    · rw [← hhead] at hlast
      exact ⟨s, hs, List.mem_singleton.mp hlast⟩

end Folders

section Rows

variable {rows rows' : List Resource}

theorem find?_key_of_perm {α K : Type} [DecidableEq K] {key : α → K} {l l' : List α}
    (hnodup : (l.map key).Nodup) (hperm : l'.Perm l) (k : K) :
    l'.find? (fun a => key a = k) = l.find? (fun a => key a = k) := by
  cases hfind : l.find? (fun a => key a = k) with
  | none =>
    refine List.find?_eq_none.mpr fun a ha => ?_
    exact List.find?_eq_none.mp hfind a (hperm.mem_iff.mp ha)
  | some a =>
    obtain rfl : key a = k := by simpa using List.find?_some hfind
    exact find?_key_of_mem ((hperm.map key).nodup_iff.mpr hnodup)
      (hperm.mem_iff.mpr (List.mem_of_find?_eq_some hfind))

theorem splitRepeats_snd_of_nodup {seen : List ResourceId} (hnodup : (rows.map Resource.id).Nodup)
    (hnew : ∀ r ∈ rows, r.id ∉ seen) : (splitRepeats seen rows).2 = [] := by
  induction rows generalizing seen with
  | nil => rfl
  | cons r rest ih =>
    obtain ⟨hr, hrest⟩ := List.nodup_cons.mp hnodup
    have htail : (splitRepeats (r.id :: seen) rest).2 = [] := by
      refine ih hrest fun q hq => ?_
      have hne : q.id ≠ r.id := fun h => hr (h ▸ List.mem_map_of_mem hq)
      simp [hne, hnew q (List.mem_cons_of_mem _ hq)]
    simp [splitRepeats, hnew r List.mem_cons_self, htail]

variable (hnodup : (rows.map Resource.id).Nodup) (hperm : rows'.Perm rows)

include hnodup hperm

theorem nodup_ids_of_perm : (rows'.map Resource.id).Nodup :=
  (hperm.map Resource.id).nodup_iff.mpr hnodup

theorem firstRows_perm : (firstRows rows').Perm (firstRows rows) := by
  rw [firstRows_of_nodup hnodup, firstRows_of_nodup (nodup_ids_of_perm hnodup hperm)]
  exact hperm

/-- A row left out in one order has a parent left out, so it is not placed before its parent in
another. -/
theorem mem_placedRows_of_before {before after : List Resource} {r : Resource}
    (h : placedRows rows = before ++ r :: after) (hbefore : ∀ q ∈ before, q ∈ placedRows rows') :
    r ∈ placedRows rows' := by
  have hplaced : r ∈ placedRows rows := by simp [h]
  have hall := (placedRows_append_perm rows').mem_iff.mpr
    ((firstRows_perm hnodup hperm).mem_iff.mpr (mem_firstRows_of_mem_placedRows hplaced))
  rcases List.mem_append.mp hall with hmem | hcircular
  · exact hmem
  · exfalso
    obtain ⟨p, hp, hpcircular⟩ := parent_of_mem_circularRows hcircular
    obtain ⟨c, hc, rfl⟩ := List.mem_map.mp hpcircular
    have hrow : c ∈ firstRows rows := (firstRows_perm hnodup hperm).mem_iff.mp
      ((placedRows_append_perm rows').subset (List.mem_append_right _ hc))
    obtain ⟨d, hd, hid⟩ := List.mem_map.mp
      (parent_mem_before_placedRows h hp (List.mem_map_of_mem hrow))
    have happart := nodup_ids_placedRows_append rows'
    rw [List.map_append] at happart
    exact (List.nodup_append.mp happart).2.2 _ (List.mem_map_of_mem (hbefore d hd)) _
      (List.mem_map_of_mem hc) hid

/-- A row that is placed in one order is not left out in another, since nothing above it is. -/
theorem mem_placedRows_of_perm {r : Resource} (hr : r ∈ placedRows rows) :
    r ∈ placedRows rows' := by
  have hbefore (before : List Resource) : ∀ after, placedRows rows = before ++ after →
      ∀ q ∈ before, q ∈ placedRows rows' := by
    induction before using List.reverseRecOn with
    | nil => simp
    | append_singleton before r ih =>
      intro after h q hq
      have hsplit : placedRows rows = before ++ r :: after := by simpa using h
      rcases List.mem_append.mp hq with hearlier | hlast
      · exact ih _ hsplit q hearlier
      · obtain rfl := List.mem_singleton.mp hlast
        exact mem_placedRows_of_before hnodup hperm hsplit (ih _ hsplit)
  exact hbefore (placedRows rows) [] (List.append_nil _).symm r hr

theorem placedRows_perm : (placedRows rows').Perm (placedRows rows) := by
  have hback := nodup_ids_of_perm hnodup hperm
  refine (List.perm_ext_iff_of_nodup (nodup_ids_placedRows rows').of_map
    (nodup_ids_placedRows rows).of_map).mpr fun r => ⟨?_, ?_⟩
  · exact mem_placedRows_of_perm hback hperm.symm
  · exact mem_placedRows_of_perm hnodup hperm

theorem circularRows_perm : (circularRows rows').Perm (circularRows rows) := by
  have hall : (placedRows rows ++ circularRows rows').Perm (placedRows rows ++ circularRows rows) :=
    calc
      (placedRows rows ++ circularRows rows').Perm (placedRows rows' ++ circularRows rows') :=
        (placedRows_perm hnodup hperm).symm.append_right _
      (placedRows rows' ++ circularRows rows').Perm (firstRows rows') :=
        placedRows_append_perm rows'
      (firstRows rows').Perm (firstRows rows) := firstRows_perm hnodup hperm
      (firstRows rows).Perm (placedRows rows ++ circularRows rows) :=
        (placedRows_append_perm rows).symm
  exact (List.perm_append_left_iff _).mp hall

end Rows

namespace Surroundings

variable {s : Surroundings} {batch : List Resource}

theorem foldersBelow_cases (h : s.catalog.Acyclic) {p : ResourceId} {r : Resource} {n : Node}
    (hn : n ∈ s.foldersBelow batch p r) :
    (∃ t, s.catalog.type? t.id = some t ∧ n = s.autoGroupNode batch p t) ∨
      ∃ c, s.catalog.subCategory? c.id = some c ∧
        n = categoryNode p (folderAbove p (c.parentId.bind s.catalog.subCategory?)) c := by
  refine (s.cases_of_mem_foldersBelow batch hn).imp_right ?_
  rintro ⟨sub, hcategory⟩
  exact mem_categoryNodes (Catalog.climbs_chain h sub) hcategory

/-- Below one resource a folder is known by its id, for whatever rows it is made. -/
theorem eq_of_mem_foldersBelow (h : s.catalog.Acyclic) {p q : ResourceId} {r r' : Resource}
    {m n : Node} (hm : m ∈ s.foldersBelow batch p r) (hn : n ∈ s.foldersBelow batch q r')
    (hid : m.id = n.id) : m = n := by
  have hbelow := s.isFolderBelow_of_mem batch hm
  rw [hid] at hbelow
  obtain rfl := hbelow.anchor_unique (s.isFolderBelow_of_mem batch hn)
  rcases foldersBelow_cases h hm with ⟨t, ht, rfl⟩ | ⟨c, hc, rfl⟩
  · rcases foldersBelow_cases h hn with ⟨u, hu, rfl⟩ | ⟨d, hd, rfl⟩
    · rw [autoGroup_injective hid, hu] at ht
      rw [Option.some.inj ht]
    · exact absurd hid (NodeId.autoGroup_ne_subCategory _ _ _ _)
  · rcases foldersBelow_cases h hn with ⟨u, hu, rfl⟩ | ⟨d, hd, rfl⟩
    · exact absurd hid.symm (NodeId.autoGroup_ne_subCategory _ _ _ _)
    · rw [subCategory_injective hid, hd] at hc
      rw [Option.some.inj hc]

section Nodes

variable {rows rows' : List Resource}

theorem cases_of_mem_offers {placed : List Resource} {n : Node} (h : n ∈ s.offers rows placed) :
    (∃ p r, n ∈ s.foldersBelow (firstRows rows) p r) ∨
      ∃ r ∈ placed, n = s.ownNode (firstRows rows) r (s.anchorAmong rows r) := by
  obtain ⟨r, hr, hn⟩ := List.mem_flatMap.mp h
  rcases List.mem_append.mp hn with hfolder | hown
  · have hmem := List.mem_of_mem_filter hfolder
    cases hanchor : s.anchorAmong rows r with
    | none => simp [hanchor, folders] at hmem
    | some p => exact .inl ⟨p, r, by simpa [hanchor, folders] using hmem⟩
  · exact .inr ⟨r, hr, List.mem_singleton.mp hown⟩

theorem eq_of_mem_offers (h : s.catalog.Acyclic) {placed : List Resource}
    (hnodup : (placed.map Resource.id).Nodup) {m n : Node} (hm : m ∈ s.offers rows placed)
    (hn : n ∈ s.offers rows placed) (hid : m.id = n.id) : m = n := by
  rcases cases_of_mem_offers hm with ⟨p, q, hm⟩ | ⟨q, hq, rfl⟩
  · rcases cases_of_mem_offers hn with ⟨p', r, hn⟩ | ⟨r, hr, rfl⟩
    · exact eq_of_mem_foldersBelow h hm hn hid
    · rw [ownNode_id] at hid
      exact absurd hid ((s.isFolderBelow_of_mem _ hm).ne_resource r.id)
  · rw [ownNode_id] at hid
    rcases cases_of_mem_offers hn with ⟨p', r, hn⟩ | ⟨r, hr, rfl⟩
    · exact absurd hid.symm ((s.isFolderBelow_of_mem _ hn).ne_resource q.id)
    · rw [ownNode_id, NodeId.resource_inj] at hid
      obtain rfl := List.inj_on_of_nodup_map hnodup hq hr hid
      rfl

/-- All that is offered enters the tree, as no two nodes are offered with one id. -/
theorem mem_placing_iff (h : s.catalog.Acyclic) {n : Node} :
    n ∈ (s.placing rows (placedRows rows)).nodes ↔ n ∈ s.offers rows (placedRows rows) := by
  have hfind := s.find?_placing (List.append_nil (placedRows rows)).symm n.id
  constructor
  · exact s.mem_offers_of_mem_placing
  · intro hn
    cases hfound : (s.offers rows (placedRows rows)).find? (·.id = n.id) with
    | none => simpa using List.find?_eq_none.mp hfound n hn
    | some m =>
      have hid : m.id = n.id := by simpa using List.find?_some hfound
      obtain rfl := eq_of_mem_offers h (nodup_ids_placedRows rows)
        (List.mem_of_find?_eq_some hfound) hn hid
      rw [hfound] at hfind
      exact List.mem_of_find?_eq_some hfind

theorem distinguished_congr {nodes nodes' : List Node} (h : nodes'.Perm nodes) :
    distinguished s.catalog nodes' = distinguished s.catalog nodes := by
  funext n
  unfold distinguished
  simp only [h.countP_eq]

variable (hnodup : (rows.map Resource.id).Nodup) (hperm : rows'.Perm rows)

include hnodup hperm

theorem anchorAmong_of_perm (r : Resource) : s.anchorAmong rows' r = s.anchorAmong rows r := by
  have hids (p : ResourceId) :
      p ∈ (firstRows rows').map Resource.id ↔ p ∈ (firstRows rows).map Resource.id :=
    ((firstRows_perm hnodup hperm).map Resource.id).mem_iff
  simp only [anchorAmong, hids]

theorem offered_of_perm (r : Resource) (anchor : Option ResourceId) :
    s.offered (firstRows rows') r anchor = s.offered (firstRows rows) r anchor := by
  have hgroup (p : ResourceId) (t : ResourceType) :
      s.backingGroupName (firstRows rows') p t = s.backingGroupName (firstRows rows) p t := by
    rw [backingGroupName, backingGroupName,
      find?_key_of_perm (nodup_ids_firstRows rows) (firstRows_perm hnodup hperm)]
  have hfolders (p : ResourceId) :
      s.foldersBelow (firstRows rows') p r = s.foldersBelow (firstRows rows) p r := by
    unfold foldersBelow autoGroupNode
    simp only [hgroup]
  cases anchor with
  | none => rfl
  | some p => simp only [offered, folders, ownNode, hfolders]

theorem offers_perm :
    (s.offers rows' (placedRows rows')).Perm (s.offers rows (placedRows rows)) := by
  have hsame : (fun r => s.offered (firstRows rows') r (s.anchorAmong rows' r)) =
      fun r => s.offered (firstRows rows) r (s.anchorAmong rows r) := by
    funext r
    rw [offered_of_perm hnodup hperm, anchorAmong_of_perm hnodup hperm]
  rw [offers, offers, hsame]
  exact (placedRows_perm hnodup hperm).flatMap_right _

theorem placing_perm (h : s.catalog.Acyclic) : (s.placing rows' (placedRows rows')).nodes.Perm
    (s.placing rows (placedRows rows)).nodes := by
  have hapart (rows : List Resource) : (s.placing rows (placedRows rows)).nodes.Nodup :=
    (s.inOrder_placing (List.append_nil (placedRows rows)).symm).nodup.of_map
  refine (List.perm_ext_iff_of_nodup (hapart rows') (hapart rows)).mpr fun n => ?_
  rw [mem_placing_iff h, mem_placing_iff h]
  exact (offers_perm hnodup hperm).mem_iff

theorem build_nodes_perm (h : s.catalog.Acyclic) :
    (s.build rows').nodes.Perm (s.build rows).nodes := by
  have hplacing := placing_perm hnodup hperm h
  rw [build_nodes, build_nodes, disambiguate_eq_map, disambiguate_eq_map,
    distinguished_congr hplacing]
  exact hplacing.map _

end Nodes

section Diagnostics

/-- What placing a row that hangs under `anchor` gives to remark. -/
def remark? (s : Surroundings) (r : Resource) (anchor : Option ResourceId) : Option Diagnostic :=
  match anchor with
  | none => r.parentId.map (.orphanReanchored r.id)
  | some _ =>
    match s.catalog.type? r.typeId with
    | none => some (.unknownResourceType r.id r.typeId)
    | some t =>
      if !t.singleton then none
      else
        match t.subCategoryId with
        | none => none
        | some sub =>
          match (s.catalog.chain sub).ending with
          | .top => none
          | .repeated id => some (.subCategoryCycle t.id id)
          | .unknown id => some (.unknownSubCategory t.id id)

/-- Remarks with one more, unless it is among them. -/
def noted (remarks : List Diagnostic) : Option Diagnostic → List Diagnostic
  | none => remarks
  | some d => if remarks.contains d then remarks else remarks ++ [d]

theorem mem_noted {remarks : List Diagnostic} {new : Option Diagnostic} {d : Diagnostic} :
    d ∈ noted remarks new ↔ d ∈ remarks ∨ new = some d := by
  cases new with
  | none => simp [noted]
  | some e =>
    by_cases he : e ∈ remarks
    · have hor : d ∈ remarks ↔ d ∈ remarks ∨ e = d :=
        ⟨.inl, fun h => h.elim id fun heq => heq ▸ he⟩
      simpa [noted, he] using hor
    · simp [noted, he, eq_comm]

theorem nodup_noted {remarks : List Diagnostic} (h : remarks.Nodup) (new : Option Diagnostic) :
    (noted remarks new).Nodup := by
  cases new with
  | none => exact h
  | some d =>
    by_cases hd : d ∈ remarks
    · simpa [noted, hd] using h
    · have hnew : (remarks ++ [d]).Nodup :=
        h.append (List.nodup_singleton d) (List.disjoint_singleton.mpr hd)
      simpa [noted, hd] using hnew

theorem diagnostics_remark (b : Build) (d : Diagnostic) :
    (b.remark d).diagnostics = noted b.diagnostics (some d) := by
  rw [Build.remark, noted]
  split <;> rfl

theorem diagnostics_addMissing (b : Build) (n : Node) :
    (s.addMissing b n).diagnostics = b.diagnostics := by
  unfold addMissing
  split <;> rfl

theorem diagnostics_addFolders (anchor : ResourceId) (parent : NodeId) (subs : List SubCategory)
    (b : Build) : (s.addFolders anchor parent subs b).1.diagnostics = b.diagnostics := by
  induction subs generalizing parent b with
  | nil => rfl
  | cons sub inner ih =>
    rw [addFolders, ih, diagnostics_addMissing]

theorem diagnostics_hang (b : Build) (r : Resource) : (s.hang batch b r).1.diagnostics =
    noted b.diagnostics (s.remark? r (s.anchor? b r)) := by
  cases hparent : r.parentId with
  | none => simp [hang, remark?, anchor?, hparent, noted]
  | some p =>
    cases hpresent : s.isPresent b (NodeId.resource p) with
    | false =>
      have hanchor : s.anchor? b r = none := by simp [anchor?, hparent, hpresent]
      rw [hang, hparent, hanchor]
      simp [remark?, hparent, hpresent, diagnostics_remark]
    | true =>
      have hanchor : s.anchor? b r = some p := by simp [anchor?, hparent, hpresent]
      rw [hang, hparent, hanchor]
      cases ht : s.catalog.type? r.typeId with
      | none => simp [remark?, hpresent, ht, diagnostics_remark]
      | some t =>
        cases hsingleton : t.singleton with
        | false => simp [remark?, hpresent, ht, hsingleton, diagnostics_addMissing, noted]
        | true =>
          cases hsub : t.subCategoryId with
          | none => simp [remark?, hpresent, ht, hsingleton, hsub, noted]
          | some sub =>
            cases hending : (s.catalog.chain sub).ending <;>
              simp [remark?, hpresent, ht, hsingleton, hsub, hending, diagnostics_addFolders,
                remarkEnding, diagnostics_remark, noted]

theorem diagnostics_place (b : Build) (r : Resource) : (s.place batch b r).diagnostics =
    noted b.diagnostics (s.remark? r (s.anchor? b r)) :=
  diagnostics_hang b r

/-- The remarks of a build: those on rows left out, and for each row placed the one it gives. -/
theorem mem_diagnostics_placing {rows before after : List Resource}
    (h : placedRows rows = before ++ after) {d : Diagnostic} :
    d ∈ (s.placing rows before).diagnostics ↔ d ∈ (beginning rows).diagnostics ∨
      ∃ r ∈ before, s.remark? r (s.anchorAmong rows r) = some d := by
  induction before using List.reverseRecOn generalizing after with
  | nil => simp [placing]
  | append_singleton before r ih =>
    have hsplit : placedRows rows = before ++ r :: after := by simpa using h
    rw [placing_append_singleton, diagnostics_place, s.anchor?_placing hsplit, mem_noted,
      ih hsplit, or_assoc]
    simp [or_and_right, exists_or]

theorem nodup_placing {rows : List Resource} (hstart : (beginning rows).diagnostics.Nodup)
    (placed : List Resource) : (s.placing rows placed).diagnostics.Nodup := by
  induction placed using List.reverseRecOn with
  | nil => exact hstart
  | append_singleton placed r ih =>
    rw [placing_append_singleton, diagnostics_place]
    exact nodup_noted ih _

theorem diagnostics_placing {rows before after : List Resource}
    (hstart : (beginning rows).diagnostics.Nodup) (h : placedRows rows = before ++ after) :
    (s.placing rows before).diagnostics.Nodup ∧ ∀ d, d ∈ (s.placing rows before).diagnostics ↔
      d ∈ (beginning rows).diagnostics ∨
        ∃ r ∈ before, s.remark? r (s.anchorAmong rows r) = some d :=
  ⟨nodup_placing hstart before, fun _ => mem_diagnostics_placing h⟩

theorem diagnostics_beginning {rows : List Resource} (hnodup : (rows.map Resource.id).Nodup) :
    (beginning rows).diagnostics = (circularRows rows).map fun r => .parentCycle r.id := by
  rw [beginning, splitRepeats_snd_of_nodup hnodup (by simp)]
  rfl

theorem nodup_beginning {rows : List Resource} (hnodup : (rows.map Resource.id).Nodup) :
    (beginning rows).diagnostics.Nodup := by
  have hids := nodup_ids_placedRows_append rows
  rw [List.map_append] at hids
  have hinjective : Function.Injective Diagnostic.parentCycle := fun a b h =>
    Diagnostic.parentCycle.inj h
  have hcycles := hids.of_append_right.map hinjective
  rw [diagnostics_beginning hnodup]
  rwa [List.map_map] at hcycles

theorem build_diagnostics_perm {rows rows' : List Resource}
    (hnodup : (rows.map Resource.id).Nodup) (hperm : rows'.Perm rows) :
    (s.build rows').diagnostics.Perm (s.build rows).diagnostics := by
  have hnodup' := nodup_ids_of_perm hnodup hperm
  obtain ⟨hapart, hmem⟩ := diagnostics_placing (s := s) (nodup_beginning hnodup)
    (List.append_nil (placedRows rows)).symm
  obtain ⟨hapart', hmem'⟩ := diagnostics_placing (s := s) (nodup_beginning hnodup')
    (List.append_nil (placedRows rows')).symm
  refine (List.perm_ext_iff_of_nodup hapart' hapart).mpr fun d => ?_
  have hcycles := ((circularRows_perm hnodup hperm).map fun r =>
    Diagnostic.parentCycle r.id).mem_iff (a := d)
  rw [hmem, hmem', diagnostics_beginning hnodup, diagnostics_beginning hnodup', hcycles]
  simp only [(placedRows_perm hnodup hperm).mem_iff, anchorAmong_of_perm hnodup hperm]

end Diagnostics

/-- A batch in another order gives the same tree in another order, with the same remarks. -/
theorem build_independent_of_row_order (s : Surroundings) (hacyclic : s.catalog.Acyclic)
    {rows rows' : List Resource} (hnodup : (rows.map Resource.id).Nodup)
    (hperm : rows'.Perm rows) :
    (s.build rows').nodes.Perm (s.build rows).nodes ∧
      (s.build rows').diagnostics.Perm (s.build rows).diagnostics :=
  ⟨build_nodes_perm hnodup hperm hacyclic, build_diagnostics_perm hnodup hperm⟩

namespace Reversed

open Inventory.Demo

def rows : List Resource :=
  [host, cpu0, cpu1, rootFileSystem, server1, exampleSource1, webRuntime, server2, exampleSource2]

/-- Only the datasources have a sub-category above theirs, and that one has none. -/
theorem catalog_acyclic : Inventory.Demo.catalog.Acyclic := by
  have hnames {a b : SubCategoryId} (h : Inventory.Demo.catalog.Names a b) :
      a = ⟨3⟩ ∧ b = ⟨2⟩ := by
    obtain ⟨s, hs, hparent⟩ := h
    have hall : ∀ s ∈ Inventory.Demo.catalog.subCategories,
        s.parentId = none ∨ s.id = ⟨3⟩ ∧ s.parentId = some ⟨2⟩ := by decide
    rcases hall s (List.mem_of_find?_eq_some hs) with hnone | ⟨hid, hsome⟩
    · simp [hnone] at hparent
    · exact ⟨(Catalog.id_of_subCategory? hs).symm.trans hid,
        Option.some.inj (hparent.symm.trans hsome)⟩
  intro id h
  obtain ⟨b, hfirst, -⟩ := Relation.TransGen.head'_iff.mp h
  obtain ⟨d, -, hlast⟩ := Relation.TransGen.tail'_iff.mp h
  exact absurd ((hnames hfirst).1.symm.trans (hnames hlast).2) (by decide)

theorem build_independent_of_row_order_reversed :
    Inventory.Demo.catalog.Acyclic ∧ (rows.map Resource.id).Nodup ∧ rows.reverse.Perm rows ∧
      ((ofCatalog Inventory.Demo.catalog).build rows.reverse).nodes.Perm
        ((ofCatalog Inventory.Demo.catalog).build rows).nodes ∧
      ((ofCatalog Inventory.Demo.catalog).build rows.reverse).diagnostics.Perm
        ((ofCatalog Inventory.Demo.catalog).build rows).diagnostics := by
  have hnodup : (rows.map Resource.id).Nodup := by decide
  exact ⟨catalog_acyclic, hnodup, List.reverse_perm rows,
    build_independent_of_row_order _ catalog_acyclic hnodup (List.reverse_perm rows)⟩

end Reversed

end Surroundings

end Tree

end FleetConsole
