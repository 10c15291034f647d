import FleetConsole.Proofs.RowAccounting

/-! A build makes a folder only for what comes right behind it: the next folder of the same chain, or
the resource that the chain is made for. Where sub-categories name each other in a circle, chains
enter the circle at different points, but each takes in all that lies above its members. So if a
folder is there, those above it are, and the folders that are still missing are the inner end of
their chain. -/
namespace FleetConsole

namespace Catalog

/-- A sub-category lies in another that the catalog knows. -/
def LiesIn (c : Catalog) (a b : SubCategoryId) : Prop :=
  c.Names a b ∧ (c.subCategory? b).isSome

variable {c : Catalog}

section Walk

variable {unmet : List SubCategory}

theorem head_chainAmong {id : SubCategoryId} {s : SubCategory}
    (h : s ∈ (c.chainAmong unmet id).members.head?) : s.id = id := by
  cases hfind : unmet.find? (·.id = id) with
  | none => simp [members_of_none hfind] at h
  | some first =>
    rw [members_of_some hfind] at h
    obtain rfl : first = s := by simpa using h
    simpa using List.find?_some hfind

theorem isChain_chainAmong (unmet : List SubCategory) (id : SubCategoryId) :
    (c.chainAmong unmet id).members.IsChain fun s above => s.parentId = some above.id := by
  induction unmet, id using Catalog.chainAmong.induct c with
  | case1 unmet id hnone => simp [members_of_none hnone]
  | case2 unmet id first hfirst hparent => simp [members_of_some hfirst, hparent]
  | case3 unmet id first hfirst parent hparent ih =>
    rw [members_of_some hfirst, hparent]
    refine List.isChain_cons.mpr ⟨fun above habove => ?_, ih⟩
    rw [hparent, head_chainAmong habove]

/-- A walk stops only before what is unknown or was met, be it on this walk or before. -/
theorem parent_mem_chainAmong {id : SubCategoryId} {s : SubCategory}
    (h : s ∈ (c.chainAmong unmet id).members) {p : SubCategoryId} (hp : s.parentId = some p)
    (hunmet : (unmet.find? (·.id = p)).isSome) :
    p ∈ (c.chainAmong unmet id).members.map SubCategory.id := by
  induction unmet, id using Catalog.chainAmong.induct c with
  | case1 unmet id hnone => simp [members_of_none hnone] at h
  | case2 unmet id first hfirst hparent =>
    rw [members_of_some hfirst, hparent] at h
    obtain rfl : s = first := by simpa using h
    simp [hparent] at hp
  | case3 unmet id first hfirst parent hparent ih =>
    have hid : first.id = id := by simpa using List.find?_some hfirst
    rw [members_of_some hfirst, hparent] at h ⊢
    by_cases hself : p = id
    · simp [hself, hid]
    · have hrest : ((without unmet id).find? (·.id = p)).isSome := by
        rwa [find?_without, if_neg hself]
      refine List.mem_cons_of_mem _ ?_
      rcases List.mem_cons.mp h with rfl | hmem
      · obtain rfl : parent = p := Option.some.inj (hparent.symm.trans hp)
        obtain ⟨above, habove⟩ := Option.isSome_iff_exists.mp hrest
        have hhead : above.id = parent := by simpa using List.find?_some habove
        exact List.mem_map.mpr ⟨above, by simp [members_of_some habove], hhead⟩
      · exact ih hmem hrest

theorem nodup_chainAmong (unmet : List SubCategory) (id : SubCategoryId) :
    ((c.chainAmong unmet id).members.map SubCategory.id).Nodup := by
  induction unmet, id using Catalog.chainAmong.induct c with
  | case1 unmet id hnone => simp [members_of_none hnone]
  | case2 unmet id first hfirst hparent => simp [members_of_some hfirst, hparent]
  | case3 unmet id first hfirst parent hparent ih =>
    have hid : first.id = id := by simpa using List.find?_some hfirst
    rw [members_of_some hfirst, hparent]
    refine List.nodup_cons.mpr ⟨fun hmem => ?_, ih⟩
    obtain ⟨t, ht, htid⟩ := List.mem_map.mp hmem
    have hother := (List.mem_filter.mp (mem_of_mem_chainAmong ht)).2
    simp [htid, hid] at hother

end Walk

theorem nodup_chain (id : SubCategoryId) : ((c.chain id).members.map SubCategory.id).Nodup :=
  nodup_chainAmong _ id

theorem isChain_chain (id : SubCategoryId) :
    ((c.chain id).members.map SubCategory.id).IsChain c.LiesIn := by
  rw [List.isChain_map]
  refine (isChain_chainAmong _ id).imp_of_mem_imp fun s above hs habove hparent => ?_
  have hknown := subCategory?_of_mem_chain habove
  exact ⟨⟨s, subCategory?_of_mem_chain hs, hparent⟩, by rw [hknown]; rfl⟩

theorem mem_chain_of_liesIn {id a b : SubCategoryId}
    (ha : a ∈ (c.chain id).members.map SubCategory.id) (hab : c.LiesIn a b) :
    b ∈ (c.chain id).members.map SubCategory.id := by
  obtain ⟨s, hs, rfl⟩ := List.mem_map.mp ha
  obtain ⟨⟨t, ht, hparent⟩, hb⟩ := hab
  have hknown := subCategory?_of_mem_chain hs
  obtain rfl : s = t := Option.some.inj (hknown.symm.trans ht)
  exact parent_mem_chainAmong hs hparent hb

end Catalog

namespace Tree

/-- Every folder without an entity is followed by a node that names it as its parent. -/
def Filled (nodes : List Node) : Prop :=
  ∀ before n after, nodes = before ++ n :: after → n.kind.isSynthetic = true →
    ∃ m ∈ after, m.parentId = some n.id

namespace Filled

theorem nil : Filled [] := by simp [Filled]

theorem cons_iff {n : Node} {nodes : List Node} : Filled (n :: nodes) ↔
    (n.kind.isSynthetic = true → ∃ m ∈ nodes, m.parentId = some n.id) ∧ Filled nodes := by
  constructor
  · intro h
    exact ⟨h [] n nodes rfl, fun before m after hsplit => h (n :: before) m after (by simp [hsplit])⟩
  · rintro ⟨hn, hnodes⟩ before m after hsplit
    cases before with
    | nil =>
      obtain ⟨rfl, rfl⟩ := List.cons.inj hsplit
      exact hn
    | cons k before => exact hnodes before m after (List.cons.inj hsplit).2

theorem append {nodes more : List Node} (h : Filled nodes) (hmore : Filled more) :
    Filled (nodes ++ more) := by
  induction nodes with
  | nil => exact hmore
  | cons n nodes ih =>
    obtain ⟨hn, hnodes⟩ := cons_iff.mp h
    refine cons_iff.mpr ⟨fun hkind => ?_, ih hnodes⟩
    obtain ⟨m, hm, hparent⟩ := hn hkind
    exact ⟨m, List.mem_append_left _ hm, hparent⟩

/-- Folders one inside the other with something in the innermost. -/
theorem of_linked {parent : NodeId} {folders : List Node} (h : Linked parent folders) {own : Node}
    (hown : own.parentId = some (innermost parent folders)) (hkind : own.kind.isSynthetic = false) :
    Filled (folders ++ [own]) := by
  induction folders generalizing parent with
  | nil => exact cons_iff.mpr ⟨by simp [hkind], nil⟩
  | cons n folders ih =>
    refine cons_iff.mpr ⟨fun _ => ?_, ih h.2 hown⟩
    cases folders with
    | nil => exact ⟨own, List.mem_singleton_self own, hown⟩
    | cons inner folders => exact ⟨inner, List.mem_cons_self, h.2.1⟩

theorem map {nodes : List Node} {f : Node → Node} (h : Filled nodes) (hid : ∀ n, (f n).id = n.id)
    (hparent : ∀ n, (f n).parentId = n.parentId) (hkind : ∀ n, (f n).kind = n.kind) :
    Filled (nodes.map f) := by
  induction nodes with
  | nil => exact nil
  | cons n nodes ih =>
    obtain ⟨hn, hnodes⟩ := cons_iff.mp h
    refine cons_iff.mpr ⟨fun hsynthetic => ?_, ih hnodes⟩
    rw [hkind] at hsynthetic
    obtain ⟨m, hm, hmn⟩ := hn hsynthetic
    exact ⟨f m, List.mem_map_of_mem hm, by rw [hparent, hid, hmn]⟩

end Filled

theorem Linked.append_right {parent : NodeId} {outer inner : List Node}
    (h : Linked parent (outer ++ inner)) : Linked (innermost parent outer) inner := by
  induction outer generalizing parent with
  | nil => exact h
  | cons n outer ih => exact ih h.2

theorem ids_categoryNodes (anchor : ResourceId) (parent : NodeId) (subs : List SubCategory) :
    (categoryNodes anchor parent subs).map Node.id =
      subs.map fun sub => NodeId.subCategory sub.id anchor := by
  induction subs generalizing parent with
  | nil => rfl
  | cons sub inner ih =>
    rw [categoryNodes, List.map_cons, List.map_cons, ih]
    rfl

/-- With the folder of a sub-category, that of the sub-category in which it lies. -/
def ClosedUpward (catalog : Catalog) (present : NodeId → Prop) : Prop :=
  ∀ a b anchor, catalog.LiesIn a b → present (NodeId.subCategory a anchor) →
    present (NodeId.subCategory b anchor)

namespace Surroundings

variable {s : Surroundings} {batch : List Resource} {nodes added : List Node}

/-- Whether an id is among those of the nodes or shown. -/
def IsThere (s : Surroundings) (nodes : List Node) (id : NodeId) : Prop :=
  id ∈ nodes.map Node.id ∨ id ∈ s.rendered

theorem insertMissing_of_isThere {n : Node} (h : s.IsThere nodes n.id) :
    s.insertMissing nodes n = nodes := by
  have hpresent : (nodes.any (·.id = n.id) || s.rendered.contains n.id) = true := by
    simpa [IsThere] using h
  rw [insertMissing, if_pos hpresent]

theorem insertMissing_of_absent {n : Node} (h : ¬s.IsThere nodes n.id) :
    s.insertMissing nodes n = nodes ++ [n] := by
  have habsent : ¬(nodes.any (·.id = n.id) || s.rendered.contains n.id) = true := by
    simpa [IsThere] using h
  rw [insertMissing, if_neg habsent]

theorem isThere_foldl_insertMissing {id : NodeId} :
    s.IsThere (added.foldl s.insertMissing nodes) id ↔
      s.IsThere nodes id ∨ id ∈ added.map Node.id := by
  induction added generalizing nodes with
  | nil => simp
  | cons n added ih =>
    rw [List.foldl_cons, ih, IsThere, InOrder.mem_insertMissing, List.map_cons, List.mem_cons,
      or_assoc]
    rfl

/-- Nodes that are all missing are all added. -/
theorem foldl_insertMissing_of_absent (hnodup : (added.map Node.id).Nodup)
    (h : ∀ n ∈ added, ¬s.IsThere nodes n.id) :
    added.foldl s.insertMissing nodes = nodes ++ added := by
  induction added generalizing nodes with
  | nil => simp
  | cons n added ih =>
    obtain ⟨hn, hrest⟩ := List.forall_mem_cons.mp h
    obtain ⟨hnew, hnodup⟩ := List.nodup_cons.mp hnodup
    have hstill : ∀ m ∈ added, ¬s.IsThere (nodes ++ [n]) m.id := by
      intro m hm hthere
      rw [IsThere, List.map_append, List.mem_append, List.map_singleton, List.mem_singleton,
        or_right_comm] at hthere
      rcases hthere with hold | hself
      · exact hrest m hm hold
      · exact hnew (hself ▸ List.mem_map_of_mem hm)
    rw [List.foldl_cons, insertMissing_of_absent hn, ih hnodup hstill, List.append_assoc,
      List.singleton_append]

/-- If none of the nodes is there without the one before it, those added are the last ones. -/
theorem exists_foldl_insertMissing_eq (hnodup : (added.map Node.id).Nodup)
    (h : added.IsChain fun outer inner => s.IsThere nodes inner.id → s.IsThere nodes outer.id) :
    ∃ front back, added = front ++ back ∧ added.foldl s.insertMissing nodes = nodes ++ back := by
  induction added with
  | nil => exact ⟨[], [], rfl, by simp⟩
  | cons n added ih =>
    obtain ⟨-, hnodup'⟩ := List.nodup_cons.mp hnodup
    by_cases hn : s.IsThere nodes n.id
    · obtain ⟨front, back, rfl, hback⟩ := ih hnodup' h.tail
      exact ⟨n :: front, back, rfl, by rw [List.foldl_cons, insertMissing_of_isThere hn, hback]⟩
    · refine ⟨[], n :: added, rfl, foldl_insertMissing_of_absent hnodup ?_⟩
      exact h.induction _ _ (fun outer inner hstep houter hinner => houter (hstep hinner))
        fun _ => hn

section FoldersBelow

variable {p : ResourceId} {r : Resource}

variable (batch p r) in
theorem ids_foldersBelow : (s.foldersBelow batch p r).map Node.id = [] ∨
    (∃ t, (s.foldersBelow batch p r).map Node.id = [NodeId.autoGroup t p]) ∨
    ∃ sub, (s.foldersBelow batch p r).map Node.id =
      ((s.catalog.chain sub).members.map SubCategory.id).reverse.map
        fun a => NodeId.subCategory a p := by
  rcases s.foldersBelow_shape batch p r with hnone | ⟨t, -, hauto⟩ | ⟨sub, hchain⟩
  · exact .inl (by rw [hnone, List.map_nil])
  · exact .inr (.inl ⟨t.id, by rw [hauto]; rfl⟩)
  · refine .inr (.inr ⟨sub, ?_⟩)
    rw [hchain, ids_categoryNodes, ← List.map_reverse, List.map_map]
    rfl

variable (batch p r) in
theorem nodup_foldersBelow : ((s.foldersBelow batch p r).map Node.id).Nodup := by
  obtain hnone | ⟨t, hauto⟩ | ⟨sub, hchain⟩ := s.ids_foldersBelow batch p r
  · rw [hnone]
    exact List.nodup_nil
  · rw [hauto]
    exact List.nodup_singleton _
  · rw [hchain]
    refine List.Nodup.map (fun a b h => subCategory_injective h) ?_
    exact List.nodup_reverse.mpr (Catalog.nodup_chain sub)

/-- With a folder on the way to a resource, that of the sub-category in which it lies. -/
theorem mem_ids_foldersBelow {a b : SubCategoryId} (hab : s.catalog.LiesIn a b)
    {anchor : ResourceId}
    (h : NodeId.subCategory a anchor ∈ (s.foldersBelow batch p r).map Node.id) :
    NodeId.subCategory b anchor ∈ (s.foldersBelow batch p r).map Node.id := by
  obtain hnone | ⟨t, hauto⟩ | ⟨sub, hchain⟩ := s.ids_foldersBelow batch p r
  · simp [hnone] at h
  · rw [hauto, List.mem_singleton] at h
    exact absurd h.symm (NodeId.autoGroup_ne_subCategory _ _ _ _)
  · rw [hchain] at h ⊢
    obtain ⟨c, hc, hid⟩ := List.mem_map.mp h
    obtain rfl := subCategory_injective hid
    obtain rfl := NodeId.anchor_of_subCategory_eq hid
    exact List.mem_map_of_mem (List.mem_reverse.mpr
      (Catalog.mem_chain_of_liesIn (List.mem_reverse.mp hc) hab))

theorem isChain_foldersBelow (h : ClosedUpward s.catalog (s.IsThere nodes)) :
    (s.foldersBelow batch p r).IsChain fun outer inner =>
      s.IsThere nodes inner.id → s.IsThere nodes outer.id := by
  have hids : ((s.foldersBelow batch p r).map Node.id).IsChain fun outer inner =>
      s.IsThere nodes inner → s.IsThere nodes outer := by
    obtain hnone | ⟨t, hauto⟩ | ⟨sub, hchain⟩ := s.ids_foldersBelow batch p r
    · rw [hnone]
      exact .nil
    · rw [hauto]
      exact .singleton _
    · rw [hchain, List.isChain_map, List.isChain_reverse]
      exact (Catalog.isChain_chain sub).imp fun a b hab => h a b p hab
  exact (List.isChain_map _).mp hids

end FoldersBelow

theorem isSynthetic_ownNode (r : Resource) (anchor : Option ResourceId) :
    (s.ownNode batch r anchor).kind.isSynthetic = false := by
  rw [(shows_ownNode batch r anchor).kind]
  rfl

theorem filled_place (batch : List Resource) {b : Build} (r : Resource) (h : Filled b.nodes)
    (hclosed : ClosedUpward s.catalog (s.IsThere b.nodes)) :
    Filled (s.place batch b r).nodes := by
  rw [nodes_place]
  cases hanchor : s.anchor? b r with
  | none =>
    exact h.append (Filled.cons_iff.mpr ⟨by simp [isSynthetic_ownNode], .nil⟩)
  | some p =>
    obtain ⟨front, back, hsplit, hadded⟩ := exists_foldl_insertMissing_eq
      (s.nodup_foldersBelow batch p r) (isChain_foldersBelow hclosed)
    have hlinked := s.linked_foldersBelow batch p r
    rw [hsplit] at hlinked
    have hown : (s.ownNode batch r (some p)).parentId =
        some (innermost (innermost (NodeId.resource p) front) back) := by
      rw [← innermost_append, ← hsplit]
      rfl
    rw [folders, hadded, List.append_assoc]
    exact h.append (.of_linked hlinked.append_right hown (isSynthetic_ownNode r _))

theorem isThere_place (batch : List Resource) (b : Build) (r : Resource) (a : SubCategoryId)
    (anchor : ResourceId) :
    s.IsThere (s.place batch b r).nodes (NodeId.subCategory a anchor) ↔
      s.IsThere b.nodes (NodeId.subCategory a anchor) ∨
        NodeId.subCategory a anchor ∈ (s.folders batch r (s.anchor? b r)).map Node.id := by
  rw [← isThere_foldl_insertMissing, nodes_place, IsThere, IsThere, List.map_append,
    List.mem_append, List.map_singleton, List.mem_singleton, ownNode_id]
  simp

theorem closedUpward_place (batch : List Resource) {b : Build} (r : Resource)
    (h : ClosedUpward s.catalog (s.IsThere b.nodes)) :
    ClosedUpward s.catalog (s.IsThere (s.place batch b r).nodes) := by
  intro x y anchor hxy hx
  rw [isThere_place] at hx ⊢
  refine hx.imp (h x y anchor hxy) fun hfolder => ?_
  cases hanchor : s.anchor? b r with
  | none => simp [hanchor, folders] at hfolder
  | some p =>
    rw [hanchor, folders] at hfolder
    exact mem_ids_foldersBelow hxy hfolder

/-- While rows are placed every folder has something in it, and no folder is there without those
above it. -/
theorem filled_placing (hshown : ClosedUpward s.catalog (· ∈ s.rendered)) (rows : List Resource)
    (placed : List Resource) :
    Filled (s.placing rows placed).nodes ∧
      ClosedUpward s.catalog (s.IsThere (s.placing rows placed).nodes) := by
  induction placed using List.reverseRecOn with
  | nil =>
    refine ⟨.nil, fun a b anchor hab ha => ?_⟩
    simpa [IsThere, placing, beginning] using hshown a b anchor hab
      (by simpa [IsThere, placing, beginning] using ha)
  | append_singleton placed r ih =>
    rw [placing_append_singleton]
    exact ⟨filled_place _ r ih.1 ih.2, closedUpward_place _ r ih.2⟩

theorem filled_build (hshown : ClosedUpward s.catalog (· ∈ s.rendered)) (rows : List Resource) :
    Filled (s.build rows).nodes := by
  rw [build_nodes, disambiguate_eq_map]
  exact (filled_placing hshown rows _).1.map (distinguished_id _ _) (distinguished_parentId _ _)
    (distinguished_kind _)

theorem notMem_rendered_of_isSynthetic {rows : List Resource} {n : Node}
    (h : n ∈ (s.build rows).nodes) (hkind : n.kind.isSynthetic = true) : n.id ∉ s.rendered := by
  rw [build_nodes, disambiguate_eq_map] at h
  obtain ⟨m, hm, rfl⟩ := List.mem_map.mp h
  rw [distinguished_kind] at hkind
  rw [distinguished_id]
  obtain ⟨r, -, hoffered⟩ := List.mem_flatMap.mp (s.mem_offers_of_mem_placing hm)
  rcases List.mem_append.mp hoffered with hfolder | hown
  · simpa using (List.mem_filter.mp hfolder).2
  · obtain rfl := List.mem_singleton.mp hown
    simp [isSynthetic_ownNode] at hkind

/-- No folder is made twice or for nothing: if the page shows no folder of a sub-category without
that of the sub-category in which it lies, then every folder that a build adds is added once, was
not shown, and has a node behind it that names it as its parent. -/
theorem folders_once_and_filled (s : Surroundings) (rows : List Resource)
    (hshown : ClosedUpward s.catalog (· ∈ s.rendered)) :
    ∀ before n after, (s.build rows).nodes = before ++ n :: after → n.kind.isSynthetic = true →
      (∀ m ∈ before ++ after, m.id ≠ n.id) ∧ n.id ∉ s.rendered ∧
        ∃ m ∈ after, m.parentId = some n.id := by
  intro before n after hsplit hkind
  have hmem : n ∈ (s.build rows).nodes := by simp [hsplit]
  have hnodup := (s.inOrder_build rows).nodup
  rw [hsplit, List.map_append, List.map_cons] at hnodup
  have honce : n.id ∉ before.map Node.id ++ after.map Node.id :=
    (List.nodup_cons.mp (List.nodup_middle.mp hnodup)).1
  refine ⟨fun m hm hid => honce ?_, notMem_rendered_of_isSynthetic hmem hkind,
    filled_build hshown rows before n after hsplit hkind⟩
  rw [← List.map_append, ← hid]
  exact List.mem_map_of_mem hm

namespace Circle

/-- Two sub-categories in a circle, and one in another that the page shows. -/
def catalog : Catalog where
  types :=
    [⟨⟨1⟩, "Pool", "Web", .service, none, true, some ⟨20⟩, []⟩,
      ⟨⟨2⟩, "Log", "Web", .service, none, true, some ⟨21⟩, []⟩,
      ⟨⟨3⟩, "Page", "Web", .service, none, true, some ⟨30⟩, []⟩]
  subCategories :=
    [⟨⟨20⟩, "Pools", some ⟨21⟩⟩, ⟨⟨21⟩, "Logs", some ⟨20⟩⟩, ⟨⟨30⟩, "Pages", some ⟨31⟩⟩,
      ⟨⟨31⟩, "Content", none⟩]

def row (id typeId : Int32) : Resource := ⟨⟨id⟩, "row", none, some ⟨1⟩, ⟨typeId⟩, .up, none⟩

def rows : List Resource := [row 2 1, row 3 2, row 4 3]

def surroundings : Surroundings :=
  (ofCatalog catalog).withRendered [NodeId.resource ⟨1⟩, NodeId.subCategory ⟨31⟩ ⟨1⟩]

def logs : Node := categoryNode ⟨1⟩ (NodeId.resource ⟨1⟩) ⟨⟨21⟩, "Logs", some ⟨20⟩⟩

def pools : Node := categoryNode ⟨1⟩ logs.id ⟨⟨20⟩, "Pools", some ⟨21⟩⟩

def pages : Node :=
  categoryNode ⟨1⟩ (NodeId.subCategory ⟨31⟩ ⟨1⟩) ⟨⟨30⟩, "Pages", some ⟨31⟩⟩

/-- The nodes behind the folder of pools. -/
def behindPools : List Node :=
  [surroundings.resourceNode (some pools.id) (row 2 1),
    surroundings.resourceNode (some logs.id) (row 3 2), pages,
    surroundings.resourceNode (some pages.id) (row 4 3)]

theorem nodes_build : (surroundings.build rows).nodes = [logs] ++ pools :: behindPools := by
  cbv

theorem closedUpward : ClosedUpward catalog (· ∈ surroundings.rendered) := by
  intro a b anchor hab hshown
  obtain ⟨⟨s, hs, hparent⟩, -⟩ := hab
  have hid : NodeId.subCategory a anchor = NodeId.subCategory ⟨31⟩ ⟨1⟩ := by
    simpa [surroundings, withRendered, ofCatalog] using hshown
  rw [subCategory_injective hid] at hs
  obtain rfl : (⟨⟨31⟩, "Content", none⟩ : SubCategory) = s := Option.some.inj hs
  cases hparent

theorem folders_once_and_filled_circle :
    ClosedUpward catalog (· ∈ surroundings.rendered) ∧
      (surroundings.build rows).nodes = [logs] ++ pools :: behindPools ∧
      pools.kind.isSynthetic = true ∧ (∀ m ∈ [logs] ++ behindPools, m.id ≠ pools.id) ∧
      pools.id ∉ surroundings.rendered ∧ ∃ m ∈ behindPools, m.parentId = some pools.id :=
  ⟨closedUpward, nodes_build, rfl,
    folders_once_and_filled surroundings rows closedUpward _ _ _ nodes_build rfl⟩

/-- Above a folder that is shown alone a folder is made that stays empty. -/
example : (((ofCatalog catalog).withRendered
    [NodeId.resource ⟨1⟩, NodeId.subCategory ⟨30⟩ ⟨1⟩]).build [row 4 3]).nodes.map
      (fun n => (n.id, n.parentId)) =
    [(NodeId.subCategory ⟨31⟩ ⟨1⟩, some (NodeId.resource ⟨1⟩)),
      (NodeId.resource ⟨4⟩, some (NodeId.subCategory ⟨30⟩ ⟨1⟩))] := by
  cbv

end Circle

end Surroundings

end Tree

end FleetConsole
