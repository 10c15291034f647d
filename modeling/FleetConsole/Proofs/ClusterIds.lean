import FleetConsole.Inventory.Demo
import FleetConsole.Proofs.ClusterArrangement
import FleetConsole.Proofs.TreeOrder

/-! The ids in the tree of a group. Below a node every id goes on from its id after a colon, and the
next letter tells the folders of sub-categories, the folders of types and the clusters apart. Where
no key and no name of a sub-category has a colon, the parts of an id can be read off it. -/
namespace FleetConsole

/-- The text of an id begins with a sign or a digit. -/
theorem exists_head?_idText (n : Int32) :
    ∃ ch, (idText n).toList.head? = some ch ∧ ch ≠ 'c' ∧ ch ≠ 'r' := by
  obtain ⟨ch, rest, hcons⟩ := List.exists_cons_of_ne_nil (toList_idText_ne_nil n)
  have hmem : ch ∈ (idText n).toList := by simp [hcons]
  refine ⟨ch, by simp [hcons], ?_, ?_⟩
  · rintro rfl
    exact notMem_idText (by decide) (by decide) n hmem
  · rintro rfl
    exact notMem_idText (by decide) (by decide) n hmem

namespace Tree

/-- The id is the stem, or goes on from it after a colon. -/
def Continues (stem : String) (id : NodeId) : Prop :=
  ∃ rest : List Char, id.text.toList = stem.toList ++ rest ∧ ∀ ch ∈ rest.head?, ch = ':'

namespace Continues

theorem refl (stem : String) : Continues stem ⟨stem⟩ := ⟨[], by simp⟩

theorem colon (stem rest : String) : Continues stem ⟨stem ++ ":" ++ rest⟩ :=
  ⟨':' :: rest.toList, by simp⟩

theorem trans {stem next : String} {id : NodeId} (h : Continues stem ⟨next⟩)
    (hid : Continues next id) : Continues stem id := by
  obtain ⟨middle, hmiddle, hcolon⟩ := h
  obtain ⟨rest, hrest, hcolon'⟩ := hid
  refine ⟨middle ++ rest, ?_, ?_⟩
  · rw [hrest, hmiddle, List.append_assoc]
  · cases middle with
    | nil => simpa using hcolon'
    | cons ch middle => simpa using hcolon

/-- Parts without a colon are read off an id. -/
theorem unique {stem a b : String} {id : NodeId} (ha : ':' ∉ a.toList) (hb : ':' ∉ b.toList)
    (h : Continues (stem ++ a) id) (h' : Continues (stem ++ b) id) : a = b := by
  obtain ⟨rest, hrest, hcolon⟩ := h
  obtain ⟨rest', hrest', hcolon'⟩ := h'
  have heq : a.toList ++ rest = b.toList ++ rest' := by
    rw [hrest] at hrest'
    simpa [List.append_assoc] using hrest'
  rw [← String.toList_inj, ← takeWhile_append_mark ha hcolon, heq, takeWhile_append_mark hb hcolon']

end Continues

/-- The first letter of what follows the stem and a colon. -/
def tag? (stem : String) (id : NodeId) : Option Char := id.text.toList[stem.toList.length + 1]?

theorem tag?_colon (stem rest : String) :
    tag? stem ⟨stem ++ ":" ++ rest⟩ = rest.toList.head? := by
  have htext : (stem ++ ":" ++ rest).toList = stem.toList ++ ':' :: rest.toList := by simp
  rw [tag?, htext, List.getElem?_append_right (Nat.le_succ _), List.head?_eq_getElem?]
  simp

theorem tag?_self (stem : String) : tag? stem ⟨stem⟩ = none := by
  simp [tag?]

theorem tag?_of_continues {stem next : String} {id : NodeId} {ch : Char}
    (h : tag? stem ⟨next⟩ = some ch) (hid : Continues next id) : tag? stem id = some ch := by
  obtain ⟨rest, hrest, -⟩ := hid
  have hlt := (List.getElem?_eq_some_iff.mp h).1
  rw [tag?, hrest, List.getElem?_append_left hlt]
  exact h

theorem categoryFolderNode_id (container : NodeId) (sub : SubCategory) :
    (categoryFolderNode container sub).id = ⟨container.text ++ ":" ++ ("cat" ++ sub.name)⟩ := by
  rw [categoryFolderNode, NodeId.mk.injEq, ← String.toList_inj]
  simp

theorem typeFolder_id (container : NodeId) (t : ResourceType) (members : List Branch) :
    (typeFolder container t members).node.id =
      ⟨container.text ++ ":" ++ ("rt" ++ t.id.text)⟩ := by
  rw [typeFolder, typeFolderNode, NodeId.mk.injEq, ← String.toList_inj]
  simp

theorem text_childKey (key : ClusterKey) (c : Cluster) :
    (childKey key c).text = key.text ++ ":" ++ (c.typeId.text ++ ":" ++ c.resourceKey) := by
  rw [childKey, ClusterKey.text_child, ← String.toList_inj]
  simp

theorem tag?_categoryFolderNode (container : NodeId) (sub : SubCategory) :
    tag? container.text (categoryFolderNode container sub).id = some 'c' := by
  rw [categoryFolderNode_id, tag?_colon]
  simp

theorem tag?_typeFolder (container : NodeId) (t : ResourceType) (members : List Branch) :
    tag? container.text (typeFolder container t members).node.id = some 'r' := by
  rw [typeFolder_id, tag?_colon]
  simp

theorem continues_of_mem_categories {container : NodeId} {f : Folder} {n : Node}
    (h : n ∈ f.categories container) :
    Continues (categoryFolderNode container f.subCategory).id.text n.id := by
  induction f using Folder.induct generalizing container with
  | step sub nested members ih =>
    rw [Folder.categories_eq] at h
    rcases List.mem_cons.mp h with rfl | hmem
    · exact .refl _
    · obtain ⟨f, hf, hn⟩ := List.mem_flatMap.mp hmem
      refine .trans ?_ (ih f hf hn)
      rw [categoryFolderNode_id (categoryFolderNode container sub).id]
      exact .colon _ _

theorem tag?_of_mem_categories {container : NodeId} {f : Folder} {n : Node}
    (h : n ∈ f.categories container) : tag? container.text n.id = some 'c' :=
  tag?_of_continues (tag?_categoryFolderNode container f.subCategory) (continues_of_mem_categories h)

section Below

variable {catalog : Catalog}

theorem tag?_of_mem_folders {container : NodeId} {folders : List Folder} {n : Node}
    (h : n ∈ folders.flatMap (Folder.categories container)) :
    Continues container.text n.id ∧ tag? container.text n.id = some 'c' := by
  obtain ⟨f, -, hmem⟩ := List.mem_flatMap.mp h
  refine ⟨.trans ?_ (continues_of_mem_categories hmem), tag?_of_mem_categories hmem⟩
  rw [categoryFolderNode_id]
  exact .colon _ _

theorem tag?_of_mem_typeFolders {container : NodeId} {typed : List (TypeId × List Branch)}
    {n : Node}
    (h : n ∈ typed.filterMap fun t => typeFolderNode? container (catalog.type? t.1)) :
    Continues container.text n.id ∧ tag? container.text n.id = some 'r' := by
  obtain ⟨_, -, hsome⟩ := List.mem_filterMap.mp h
  obtain ⟨t, -, -, rfl⟩ := typeFolderNode?_eq_some_iff.mp hsome
  refine ⟨?_, tag?_typeFolder _ t []⟩
  rw [typeFolder_id]
  exact .colon _ _

/-- Every id below a node belongs to a folder of a sub-category, to one of a type, or to the branch
of a cluster. -/
theorem mem_ids_below {key : ClusterKey} {clusters : List Cluster} {id : NodeId}
    (h : id ∈ (below catalog key clusters).flatMap Branch.ids) :
    Continues key.text id ∧ (tag? key.text id = some 'c' ∨ tag? key.text id = some 'r') ∨
      ∃ c ∈ clusters, id ∈ (branchOf catalog key c).ids := by
  rw [← Branch.map_id_flatMap_nodes] at h
  obtain ⟨n, hn, rfl⟩ := List.mem_map.mp h
  rcases List.mem_append.mp ((perm_nodes_below catalog key clusters).mem_iff.mp hn) with
    hcategory | hrest
  · have htag := tag?_of_mem_folders hcategory
    exact .inl ⟨htag.1, .inl htag.2⟩
  · rcases List.mem_append.mp hrest with hfolder | hcluster
    · have htag := tag?_of_mem_typeFolders hfolder
      exact .inl ⟨htag.1, .inr htag.2⟩
    · obtain ⟨c, hc, hmem⟩ := List.mem_flatMap.mp hcluster
      exact .inr ⟨c, hc, List.mem_map_of_mem hmem⟩

theorem mem_ids_branchOf {key : ClusterKey} {c : Cluster} {id : NodeId} :
    id ∈ (branchOf catalog key c).ids ↔ id = ⟨(childKey key c).text⟩ ∨
      id ∈ (below catalog (childKey key c) c.children).flatMap Branch.ids := by
  rw [Branch.ids_eq, branchOf_node, branchOf_children, List.mem_cons]
  rfl

theorem continues_of_mem_below {key : ClusterKey} {clusters : List Cluster} {id : NodeId}
    (h : id ∈ (below catalog key clusters).flatMap Branch.ids) : Continues key.text id := by
  induction clusters using Cluster.induct generalizing key with
  | step clusters ih =>
    rcases mem_ids_below h with ⟨hcontinues, -⟩ | ⟨c, hc, hmem⟩
    · exact hcontinues
    · have hchild : Continues key.text ⟨(childKey key c).text⟩ := by
        rw [text_childKey]
        exact .colon _ _
      rcases mem_ids_branchOf.mp hmem with rfl | hbelow
      · exact hchild
      · exact hchild.trans (ih c hc hbelow)

theorem continues_of_mem_branchOf {key : ClusterKey} {c : Cluster} {id : NodeId}
    (h : id ∈ (branchOf catalog key c).ids) : Continues (childKey key c).text id := by
  rcases mem_ids_branchOf.mp h with rfl | hbelow
  · exact .refl _
  · exact continues_of_mem_below hbelow

theorem tag?_of_mem_branchOf {key : ClusterKey} {c : Cluster} {id : NodeId}
    (h : id ∈ (branchOf catalog key c).ids) :
    ∃ ch, tag? key.text id = some ch ∧ ch ≠ 'c' ∧ ch ≠ 'r' := by
  obtain ⟨ch, hhead, hne⟩ := exists_head?_idText c.typeId.val
  obtain ⟨rest, hrest⟩ := List.head?_eq_some_iff.mp hhead
  refine ⟨ch, tag?_of_continues ?_ (continues_of_mem_branchOf h), hne⟩
  rw [text_childKey, tag?_colon, TypeId.text]
  simp [hrest]

theorem tag?_ne_of_mem_branchOf {key : ClusterKey} {c : Cluster} {id : NodeId}
    (h : id ∈ (branchOf catalog key c).ids) :
    tag? key.text id ≠ some 'c' ∧ tag? key.text id ≠ some 'r' := by
  obtain ⟨ch, hch, hc, hr⟩ := tag?_of_mem_branchOf h
  rw [hch]
  exact ⟨fun heq => hc (Option.some.inj heq), fun heq => hr (Option.some.inj heq)⟩

theorem ne_of_mem_below {key : ClusterKey} {clusters : List Cluster} {id : NodeId}
    (h : id ∈ (below catalog key clusters).flatMap Branch.ids) : id ≠ ⟨key.text⟩ := by
  rintro rfl
  have hself := tag?_self key.text
  rcases mem_ids_below h with ⟨-, hcategory | hfolder⟩ | ⟨c, -, hmem⟩
  · simp [hself] at hcategory
  · simp [hself] at hfolder
  · obtain ⟨ch, hch, -⟩ := tag?_of_mem_branchOf hmem
    simp [hself] at hch

/-! ### No node has the id of one above it -/

/-- In the folder of a sub-category what is filed has other ids than the folders around it. -/
theorem apart_toBranch {stem : String} {container : NodeId} {f : Folder}
    (hcontainer : ∀ sub, tag? stem (categoryFolderNode container sub).id = some 'c')
    (h : ∀ b ∈ f.contents, b.Apart ∧ ∀ id ∈ b.ids, tag? stem id ≠ some 'c') :
    (f.toBranch container).Apart := by
  induction f using Folder.induct generalizing container with
  | step sub nested members ih =>
    let inner := (categoryFolderNode container sub).id
    have hinner (s : SubCategory) : tag? stem (categoryFolderNode inner s).id = some 'c' := by
      refine tag?_of_continues (hcontainer sub) ?_
      rw [categoryFolderNode_id inner]
      exact .colon _ _
    rw [Folder.contents_eq, List.forall_mem_append] at h
    have hnested (f : Folder) (hf : f ∈ nested) (b : Branch) (hb : b ∈ f.contents) :=
      h.2 b (List.mem_flatMap.mpr ⟨f, hf, hb⟩)
    have hchildren (P : Branch → Prop) (hfolders : ∀ f ∈ nested, P (f.toBranch inner))
        (hmembers : ∀ b ∈ members, P b) :
        ∀ b ∈ (Folder.toBranch container ⟨sub, nested, members⟩).children, P b := by
      intro b hb
      rw [Folder.toBranch_eq, (Branch.perm_sort _).mem_iff, List.mem_append, List.mem_map] at hb
      rcases hb with ⟨f, hf, rfl⟩ | hmember
      · exact hfolders f hf
      · exact hmembers b hmember
    have hid : (Folder.toBranch container ⟨sub, nested, members⟩).node.id = inner := by
      rw [Folder.toBranch_eq]
    refine .intro (hchildren _ (fun f hf hmem => ?_) fun b hb hmem => ?_)
      (hchildren _ (fun f hf => ih f hf hinner (hnested f hf)) fun b hb => (h.1 b hb).1)
    · rw [hid, Branch.ids] at hmem
      obtain ⟨n, hn, hnid⟩ := List.mem_map.mp hmem
      rcases List.mem_append.mp ((f.perm_nodes_toBranch inner).mem_iff.mp hn) with
        hcategory | hcontent
      · have htag := tag?_of_mem_categories hcategory
        rw [hnid, tag?_self] at htag
        simp at htag
      · obtain ⟨b, hb, hnb⟩ := List.mem_flatMap.mp hcontent
        exact (hnested f hf b hb).2 inner (hnid ▸ List.mem_map_of_mem hnb) (hcontainer sub)
    · rw [hid] at hmem
      exact (h.1 b hb).2 inner hmem (hcontainer sub)

theorem mem_ids_typeFolder {container : NodeId} {t : ResourceType} {members : List Branch}
    {id : NodeId} : id ∈ (typeFolder container t members).ids ↔
      id = (typeFolder container t members).node.id ∨ ∃ b ∈ members, id ∈ b.ids := by
  rw [Branch.ids_eq, List.mem_cons, List.mem_flatMap]
  simp only [typeFolder, (Branch.perm_sort members).mem_iff]

theorem apart_typeFolder {container : NodeId} {t : ResourceType} {members : List Branch}
    (h : ∀ b ∈ members, b.Apart ∧ ∀ id ∈ b.ids, tag? container.text id ≠ some 'r') :
    (typeFolder container t members).Apart := by
  refine .intro (fun b hb hmem => ?_) fun b hb => ?_
  · exact (h b ((Branch.perm_sort members).mem_iff.mp hb)).2 _ hmem (tag?_typeFolder _ t members)
  · exact (h b ((Branch.perm_sort members).mem_iff.mp hb)).1

theorem apart_branchOf {key : ClusterKey} {c : Cluster}
    (h : ∀ b ∈ below catalog (childKey key c) c.children, b.Apart) :
    (branchOf catalog key c).Apart := by
  refine .intro (fun b hb hmem => ?_) fun b hb => ?_
  · rw [branchOf_children] at hb
    rw [branchOf_node] at hmem
    exact ne_of_mem_below (List.mem_flatMap.mpr ⟨b, hb, hmem⟩) rfl
  · rw [branchOf_children] at hb
    exact h b hb

/-- What is filed below a node can be told from the folders of sub-categories. -/
theorem apart_filed (key : ClusterKey) {clusters : List Cluster}
    (h : ∀ c ∈ clusters, (branchOf catalog key c).Apart) :
    ∀ b ∈ filed catalog ⟨key.text⟩ (branchesOf catalog key clusters),
      b.Apart ∧ ∀ id ∈ b.ids, tag? key.text id ≠ some 'c' := by
  intro b hb
  obtain ⟨typed, htyped, ⟨hmember, -⟩ | ⟨t, -, -, rfl⟩⟩ := mem_filed.mp hb
  · obtain ⟨c, hc, -, rfl⟩ := exists_of_mem_byType htyped hmember
    exact ⟨h c hc, fun id hid => (tag?_ne_of_mem_branchOf hid).1⟩
  · constructor
    · refine apart_typeFolder fun b hb => ?_
      obtain ⟨c, hc, -, rfl⟩ := exists_of_mem_byType htyped hb
      exact ⟨h c hc, fun id hid => (tag?_ne_of_mem_branchOf hid).2⟩
    · intro id hid
      rcases mem_ids_typeFolder.mp hid with rfl | ⟨b, hb, hidb⟩
      · have hfolder := tag?_typeFolder ⟨key.text⟩ t typed.2
        simp [hfolder]
      · obtain ⟨c, -, -, rfl⟩ := exists_of_mem_byType htyped hb
        exact (tag?_ne_of_mem_branchOf hidb).1

theorem apart_below {key : ClusterKey} {clusters : List Cluster} :
    ∀ b ∈ below catalog key clusters, b.Apart := by
  induction clusters using Cluster.induct generalizing key with
  | step clusters ih =>
    have hfiled := apart_filed key fun c hc => apart_branchOf (ih c hc)
    have hshelf := perm_shelf catalog ⟨key.text⟩ (branchesOf catalog key clusters)
    intro b hb
    rw [below, arrangeBelow_eq, (Branch.perm_sort _).mem_iff, List.mem_append, List.mem_map] at hb
    rcases hb with hloose | ⟨f, hf, rfl⟩
    · exact (hfiled b (hshelf.mem_iff.mp (List.mem_append_left _ hloose))).1
    · refine apart_toBranch (tag?_categoryFolderNode ⟨key.text⟩) fun b hb => hfiled b ?_
      exact hshelf.mem_iff.mp (List.mem_append_right _ (List.mem_flatMap.mpr ⟨f, hf, hb⟩))

theorem apart_groupBranch (g : ResourceGroup) (clusters : List Cluster) :
    (groupBranch catalog g clusters).Apart := by
  refine .intro (fun b hb hmem => ?_) fun b hb => ?_
  · rw [groupBranch_children] at hb
    exact ne_of_mem_below (List.mem_flatMap.mpr ⟨b, hb, hmem⟩) rfl
  · rw [groupBranch_children] at hb
    exact apart_below b hb

end Below

end Tree

/-- In every list of clusters each has a type and key of its own, and no key has a colon. -/
inductive Cluster.Unambiguous : List Cluster → Prop
  | intro {clusters : List Cluster}
      (apart : (clusters.map fun c => (c.typeId, c.resourceKey)).Nodup)
      (keys : ∀ c ∈ clusters, ':' ∉ c.resourceKey.toList)
      (below : ∀ c ∈ clusters, Unambiguous c.children) : Unambiguous clusters

/-- No two sub-categories share a name, and none of the names has a colon. -/
structure Catalog.Unambiguous (catalog : Catalog) : Prop where
  apart : (catalog.subCategories.map SubCategory.name).Nodup
  names : ∀ s ∈ catalog.subCategories, ':' ∉ s.name.toList

namespace Tree

section Nodup

variable {catalog : Catalog}

theorem nodup_categories (hcatalog : catalog.Unambiguous) {folders : List Folder}
    (h : Folder.Tidy catalog folders) (container : NodeId) :
    ((folders.flatMap (Folder.categories container)).map Node.id).Nodup := by
  induction h generalizing container with
  | @intro folders known apart nested ih =>
    rw [List.map_flatMap, List.nodup_flatMap]
    constructor
    · intro f hf
      rw [Folder.categories_eq, List.map_cons, List.nodup_cons]
      refine ⟨fun hmem => ?_, ih f hf _⟩
      obtain ⟨n, hn, hnid⟩ := List.mem_map.mp hmem
      obtain ⟨g, -, hng⟩ := List.mem_flatMap.mp hn
      have htag := tag?_of_mem_categories hng
      rw [hnid, tag?_self] at htag
      simp at htag
    · have hmem (f : Folder) (hf : f ∈ folders) : f.subCategory ∈ catalog.subCategories :=
        List.mem_of_find?_eq_some (known f hf)
      have hids : folders.Pairwise fun f g => f.subCategory.id ≠ g.subCategory.id :=
        List.pairwise_map.mp apart
      refine hids.imp_of_mem fun {f g} hf hg hne id hidf hidg => hne ?_
      obtain ⟨n, hn, rfl⟩ := List.mem_map.mp hidf
      obtain ⟨m, hm, hmn⟩ := List.mem_map.mp hidg
      have hfirst := continues_of_mem_categories hn
      have hsecond := continues_of_mem_categories hm
      rw [categoryFolderNode_id] at hfirst hsecond
      rw [hmn] at hsecond
      have hcolon (s : SubCategory) (hs : s ∈ catalog.subCategories) :
          ':' ∉ ("cat" ++ s.name).toList := by
        simpa using hcatalog.names s hs
      have hname := Continues.unique (hcolon _ (hmem f hf)) (hcolon _ (hmem g hg)) hfirst hsecond
      have hname' : f.subCategory.name = g.subCategory.name := by
        rw [← String.toList_inj] at hname ⊢
        simpa using hname
      rw [List.inj_on_of_nodup_map hcatalog.apart (hmem f hf) (hmem g hg) hname']

theorem nodup_typeFolders (container : NodeId) (clusters : List (TypeId × Branch)) :
    (((byType clusters).filterMap fun typed =>
      typeFolderNode? container (catalog.type? typed.1)).map Node.id).Nodup := by
  refine List.pairwise_map.mpr (List.pairwise_filterMap.mpr ?_)
  refine (List.pairwise_map.mp (nodup_byType clusters)).imp fun {a b} hne n hn m hm heq => hne ?_
  obtain ⟨t, ht, -, rfl⟩ := typeFolderNode?_eq_some_iff.mp hn
  obtain ⟨u, hu, -, rfl⟩ := typeFolderNode?_eq_some_iff.mp hm
  rw [typeFolder_id, typeFolder_id, NodeId.mk.injEq, ← String.toList_inj] at heq
  have htext : t.id.text = u.id.text := by
    rw [← String.toList_inj]
    simpa using heq
  have hval : t.id.val = u.id.val := idText_injective htext
  rw [← Catalog.id_of_type? ht, ← Catalog.id_of_type? hu]
  exact TypeId.mk.injEq _ _ ▸ hval

theorem childKey_unique {key : ClusterKey} {c d : Cluster} {id : NodeId}
    (hc : ':' ∉ c.resourceKey.toList) (hd : ':' ∉ d.resourceKey.toList)
    (h : Continues (childKey key c).text id) (h' : Continues (childKey key d).text id) :
    (c.typeId, c.resourceKey) = (d.typeId, d.resourceKey) := by
  have htype (t : TypeId) : ':' ∉ t.text.toList := notMem_idText (by decide) (by decide) t.val
  rw [childKey, ClusterKey.text_child] at h h'
  have hid : c.typeId = d.typeId := by
    have htext := Continues.unique (htype _) (htype _) (.trans (.colon _ _) h)
      (.trans (.colon _ _) h')
    have hval : c.typeId.val = d.typeId.val := idText_injective htext
    exact congrArg TypeId.mk hval
  rw [hid] at h ⊢
  rw [Continues.unique hc hd h h']

theorem nodup_branches {key : ClusterKey} {clusters : List Cluster}
    (apart : (clusters.map fun c => (c.typeId, c.resourceKey)).Nodup)
    (keys : ∀ c ∈ clusters, ':' ∉ c.resourceKey.toList)
    (h : ∀ c ∈ clusters,
      ((below catalog (childKey key c) c.children).flatMap Branch.ids).Nodup) :
    (clusters.flatMap fun c => (branchOf catalog key c).ids).Nodup := by
  rw [List.nodup_flatMap]
  constructor
  · intro c hc
    rw [Branch.ids_eq, branchOf_node, branchOf_children, List.nodup_cons]
    exact ⟨fun hmem => ne_of_mem_below hmem rfl, h c hc⟩
  · refine (List.pairwise_map.mp apart).imp_of_mem fun {c d} hc hd hne id hidc hidd => hne ?_
    exact childKey_unique (keys c hc) (keys d hd) (continues_of_mem_branchOf hidc)
      (continues_of_mem_branchOf hidd)

/-- The folders of sub-categories directly below a node. -/
def categoriesAt (catalog : Catalog) (key : ClusterKey) (clusters : List Cluster) : List Node :=
  (shelf catalog ⟨key.text⟩ (branchesOf catalog key clusters)).folders.flatMap
    (Folder.categories ⟨key.text⟩)

/-- The folders of sub-categories, those of types and the clusters differ in their tags, and no
two of one sort have an id in common, as long as that holds of the folders of sub-categories below
each node. -/
theorem nodup_below {P : ClusterKey → List Cluster → Prop}
    (hat : ∀ key clusters, P key clusters → ((categoriesAt catalog key clusters).map Node.id).Nodup)
    (hdown : ∀ key clusters, P key clusters → ∀ c ∈ clusters, P (childKey key c) c.children)
    {clusters : List Cluster} (h : Cluster.Unambiguous clusters) {key : ClusterKey}
    (hP : P key clusters) : ((below catalog key clusters).flatMap Branch.ids).Nodup := by
  induction h generalizing key with
  | @intro clusters apart keys nested ih =>
    have hcluster {id : NodeId}
        (hid : id ∈ clusters.flatMap fun c => (branchOf catalog key c).ids) :
        tag? key.text id ≠ some 'c' ∧ tag? key.text id ≠ some 'r' := by
      obtain ⟨c, -, hmem⟩ := List.mem_flatMap.mp hid
      exact tag?_ne_of_mem_branchOf hmem
    have hids : (clusters.flatMap fun c => (branchOf catalog key c).nodes).map Node.id =
        clusters.flatMap fun c => (branchOf catalog key c).ids := List.map_flatMap
    rw [← Branch.map_id_flatMap_nodes, ((perm_nodes_below catalog key clusters).map _).nodup_iff,
      List.map_append, List.map_append, hids, List.nodup_append, List.nodup_append]
    refine ⟨hat key clusters hP, ⟨nodup_typeFolders _ _,
      nodup_branches apart keys fun c hc => ih c hc (hdown key clusters hP c hc), ?_⟩, ?_⟩
    · rintro id hfolder _ hother rfl
      obtain ⟨n, hn, rfl⟩ := List.mem_map.mp hfolder
      exact (hcluster hother).2 (tag?_of_mem_typeFolders hn).2
    · rintro id hcategory _ hother rfl
      obtain ⟨n, hn, rfl⟩ := List.mem_map.mp hcategory
      have htag := (tag?_of_mem_folders hn).2
      rcases List.mem_append.mp hother with hfolder | hother
      · obtain ⟨m, hm, hmn⟩ := List.mem_map.mp hfolder
        have htag' := (tag?_of_mem_typeFolders hm).2
        rw [hmn, htag] at htag'
        simp at htag'
      · exact (hcluster hother).1 htag

theorem nodup_groupBranch {g : ResourceGroup} {clusters : List Cluster}
    (h : ((below catalog (.root g.id) clusters).flatMap Branch.ids).Nodup) :
    (groupBranch catalog g clusters).ids.Nodup := by
  rw [Branch.ids_eq, groupBranch_children, List.nodup_cons]
  exact ⟨fun hmem => ne_of_mem_below hmem rfl, h⟩

end Nodup

section Order

/-- Only repeated ids are left to remark on where every parent comes first. -/
theorem duplicateNodeId_of_mem_violationsFrom {all rendered seen : List NodeId}
    {nodes : List Node} (h : ∀ before n after, nodes = before ++ n :: after →
      ∀ p, n.parentId = some p → p ≠ n.id ∧ (p ∈ before.map Node.id ++ seen ∨ p ∈ rendered))
    {v : Violation} (hv : v ∈ violationsFrom all rendered seen nodes) :
    ∃ id, v = .duplicateNodeId id := by
  induction nodes generalizing seen with
  | nil => simp [violationsFrom] at hv
  | cons n rest ih =>
    rw [forall_split_cons] at h
    obtain ⟨hfirst, hrest⟩ := h
    have hparent : parentViolation all rendered seen n = none :=
      parentViolation_eq_none_iff.mpr hfirst
    rw [violationsFrom, hparent, Option.toList_none, List.nil_append, List.mem_append] at hv
    rcases hv with hrepeat | hlater
    · rw [repeatViolation] at hrepeat
      split at hrepeat
      · exact ⟨n.id, by simpa using hrepeat⟩
      · simp at hrepeat
    · refine ih (fun before m after hsplit p hp => ?_) hlater
      simpa [or_left_comm] using hrest before m after hsplit p hp

theorem parent_mem_before_clusterTree (catalog : Catalog) (g : ResourceGroup)
    (clusters : List Cluster) {before after : List Node} {n : Node} {p : NodeId}
    (h : clusterTree catalog g clusters = before ++ n :: after) (hp : n.parentId = some p) :
    p ≠ n.id ∧ p ∈ before.map Node.id := by
  rw [clusterTree_eq] at h
  exact Branch.parent_mem_before_flatten (apart_groupBranch g clusters) h hp

theorem inOrder_of_nodup_below {catalog : Catalog} {g : ResourceGroup} {clusters : List Cluster}
    (h : ((below catalog (.root g.id) clusters).flatMap Branch.ids).Nodup) :
    InOrder [] (clusterTree catalog g clusters) := by
  constructor
  · rw [clusterTree_eq, Branch.map_id_flatten]
    exact nodup_groupBranch h
  · intro before n after hsplit p hp
    obtain ⟨hne, hmem⟩ := parent_mem_before_clusterTree catalog g clusters hsplit hp
    exact ⟨hne, .inl hmem⟩

theorem inOrder_clusterTree {catalog : Catalog} (hcatalog : catalog.Unambiguous)
    (g : ResourceGroup) {clusters : List Cluster} (h : Cluster.Unambiguous clusters) :
    InOrder [] (clusterTree catalog g clusters) := by
  refine inOrder_of_nodup_below (nodup_below (P := fun _ _ => True) (fun key clusters _ => ?_)
    (fun _ _ _ _ _ => trivial) h trivial)
  exact nodup_categories hcatalog (tidy_shelf _ _ _) _

end Order

end Tree

namespace Inventory

open FleetConsole.Tree

/-- In the tree of a group every node comes after its parent, so at most an id is used twice; where
names and keys are unambiguous none is, and the tree can be shown. -/
theorem group_trees_inOrder (catalog : Catalog) (g : ResourceGroup) (clusters : List Cluster) :
    (∀ v ∈ violations (clusterTree catalog g clusters) [], ∃ id, v = .duplicateNodeId id) ∧
    (∀ before n after, clusterTree catalog g clusters = before ++ n :: after →
      ∀ p, n.parentId = some p → p ≠ n.id ∧ p ∈ before.map Node.id) ∧
    (catalog.Unambiguous → Cluster.Unambiguous clusters →
      violations (clusterTree catalog g clusters) [] = [] ∧
      ∀ (inv : Inventory) (id : GroupId), inv.catalog = catalog →
        inv.group? id .visible = some g → (inv.clusters.get? id).getD [] = clusters →
        inv.groupTree id = .ok (clusterTree catalog g clusters)) := by
  have hparents {before after : List Node} {n : Node} {p : NodeId}
      (h : clusterTree catalog g clusters = before ++ n :: after) (hp : n.parentId = some p) :=
    parent_mem_before_clusterTree catalog g clusters h hp
  refine ⟨fun v hv => ?_, fun before n after h p hp => hparents h hp, fun hcatalog h => ?_⟩
  · refine duplicateNodeId_of_mem_violationsFrom (fun before n after h p hp => ?_) hv
    obtain ⟨hne, hmem⟩ := hparents h hp
    exact ⟨hne, .inl (List.mem_append_left _ hmem)⟩
  · have hnone := (violations_eq_nil_iff _ _).mpr (inOrder_clusterTree hcatalog g h)
    refine ⟨hnone, fun inv id hinv hgroup hclusters => ?_⟩
    have hok := (ensureOrder_eq_ok_iff _ _).mpr hnone
    simp only [groupTree, hgroup, hinv, hclusters, checkedClusterTree, hok]
    rfl

namespace TwoServers

open Demo

def group : ResourceGroup :=
  ⟨⟨20001⟩, "App Servers", some "Both standalone servers", .compatible, some ⟨2⟩, none, none⟩

/-- The group of the demonstration, with a cluster below another of its type. -/
def clusters : List Cluster :=
  [⟨⟨5⟩, "ExampleDS", "ExampleDS", 2, 2, [⟨⟨5⟩, "ExampleDS", "pool", 1, 2, []⟩]⟩,
    ⟨⟨5⟩, "ReportingDS", "ReportingDS", 1, 2, []⟩, ⟨⟨6⟩, "web", "Web Runtime", 1, 2, []⟩]

def inventory : Inventory :=
  { Inventory.empty with
    catalog := Demo.catalog, groups := [group], clusters := [(group.id, clusters)] }

theorem catalog_unambiguous : Demo.catalog.Unambiguous := by
  constructor
  · decide
  · decide

theorem clusters_unambiguous : Cluster.Unambiguous clusters := by
  have hleaf : Cluster.Unambiguous [] := .intro (by decide) (by simp) (by simp)
  have hpool : Cluster.Unambiguous [⟨⟨5⟩, "ExampleDS", "pool", 1, 2, []⟩] :=
    .intro (by decide) (by decide) (by simpa using hleaf)
  refine .intro (by decide) (by decide) ?_
  simpa [clusters] using ⟨hpool, hleaf⟩

theorem group_trees_inOrder_two_servers :
    Demo.catalog.Unambiguous ∧ Cluster.Unambiguous clusters ∧
      inventory.group? ⟨20001⟩ .visible = some group ∧
      inventory.groupTree ⟨20001⟩ = .ok (clusterTree Demo.catalog group clusters) := by
  have hgroup : inventory.group? ⟨20001⟩ .visible = some group := by decide
  obtain ⟨-, -, hshown⟩ := group_trees_inOrder Demo.catalog group clusters
  obtain ⟨-, htree⟩ := hshown catalog_unambiguous clusters_unambiguous
  exact ⟨catalog_unambiguous, clusters_unambiguous, hgroup,
    htree inventory ⟨20001⟩ rfl hgroup rfl⟩

end TwoServers

end Inventory

end FleetConsole
