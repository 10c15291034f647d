import Mathlib
import FleetConsole.Proofs.Preorder
import FleetConsole.Proofs.SubCategories

/-! What arranging the branches below a node does to them. They are grouped by type, put in folders,
filed, merged and sorted; none is lost or found twice, and all that is added are folders. -/
namespace FleetConsole

namespace Tree

open scoped List

section GroupByKey

variable {K α : Type} [DecidableEq K] (key : α → K)

theorem perm_groupByKey (l : List α) : ((groupByKey key l).flatMap (·.2)).Perm l := by
  induction l with
  | nil => exact .nil
  | cons a rest ih =>
    have hsplit := List.filter_append_perm (fun g => decide (g.1 = key a)) (groupByKey key rest)
    have hjoined := (hsplit.flatMap_right (·.2)).trans ih
    rw [List.flatMap_append] at hjoined
    simp only [groupByKey, List.flatMap_cons, List.cons_append]
    simpa only [ne_eq, decide_not] using hjoined.cons a

theorem nodup_keys_groupByKey (l : List α) : ((groupByKey key l).map (·.1)).Nodup := by
  induction l with
  | nil => exact List.nodup_nil
  | cons a rest ih =>
    rw [groupByKey, List.map_cons]
    refine List.nodup_cons.mpr ⟨?_, ih.sublist (List.filter_sublist.map _)⟩
    simp

theorem key_of_mem_groupByKey {l : List α} {g : K × List α} (hg : g ∈ groupByKey key l) {a : α}
    (ha : a ∈ g.2) : key a = g.1 := by
  induction l generalizing g with
  | nil => simp [groupByKey] at hg
  | cons b rest ih =>
    rw [groupByKey] at hg
    rcases List.mem_cons.mp hg with rfl | hrest
    · rcases List.mem_cons.mp ha with rfl | hothers
      · rfl
      · obtain ⟨other, hother, hmem⟩ := List.mem_flatMap.mp hothers
        obtain ⟨hother, hkey⟩ := List.mem_filter.mp hother
        exact (ih hother hmem).trans (of_decide_eq_true hkey)
    · exact ih (List.mem_filter.mp hrest).1 ha

theorem flatMap_filter_groupByKey (k : K) (l : List α) :
    ((groupByKey key l).filter (·.1 = k)).flatMap (·.2) = l.filter (key · = k) := by
  induction l generalizing k with
  | nil => rfl
  | cons a rest ih =>
    rw [groupByKey]
    by_cases h : key a = k
    · subst h
      have hothers : ((groupByKey key rest).filter (·.1 ≠ key a)).filter (·.1 = key a) = [] := by
        simp [List.filter_filter]
      rw [List.filter_cons_of_pos (by simp), List.filter_cons_of_pos (by simp), hothers,
        List.flatMap_cons, ih]
      simp
    · have hothers : ((groupByKey key rest).filter (·.1 ≠ key a)).filter (·.1 = k) =
          (groupByKey key rest).filter (·.1 = k) := by
        rw [List.filter_filter]
        refine List.filter_congr fun g _ => ?_
        by_cases hg : g.1 = k
        · simp [hg, Ne.symm h]
        · simp [hg]
      rw [List.filter_cons_of_neg (by simpa using h), List.filter_cons_of_neg (by simpa using h),
        hothers, ih]

/-- A group has all items of its key, in their order. -/
theorem members_of_mem_groupByKey {l : List α} {g : K × List α} (hg : g ∈ groupByKey key l) :
    g.2 = l.filter (key · = g.1) := by
  have hone : (groupByKey key l).filter (·.1 = g.1) = [g] := by
    have hnodup := nodup_keys_groupByKey key l
    refine List.perm_singleton.mp ((List.perm_ext_iff_of_nodup
      (hnodup.of_map.filter _) (List.nodup_singleton g)).mpr fun g' => ?_)
    rw [List.mem_filter, List.mem_singleton, decide_eq_true_eq]
    constructor
    · rintro ⟨hg', hkey⟩
      exact List.inj_on_of_nodup_map hnodup hg' hg hkey
    · rintro rfl
      exact ⟨hg, rfl⟩
  have hmembers := flatMap_filter_groupByKey key g.1 l
  rw [hone] at hmembers
  simpa using hmembers

/-- A group starts with an item of its key. -/
theorem map_head?_of_mem_groupByKey {l : List α} {g : K × List α} (hg : g ∈ groupByKey key l) :
    g.2.head?.map key = some g.1 := by
  induction l generalizing g with
  | nil => simp [groupByKey] at hg
  | cons a rest ih =>
    rw [groupByKey] at hg
    rcases List.mem_cons.mp hg with rfl | hrest
    · rfl
    · exact ih (List.mem_filter.mp hrest).1

theorem exists_group_of_mem {l : List α} {a : α} (ha : a ∈ l) :
    ∃ g ∈ groupByKey key l, g.1 = key a := by
  obtain ⟨g, hg, hmem⟩ := List.mem_flatMap.mp ((perm_groupByKey key l).mem_iff.mpr ha)
  exact ⟨g, hg, (key_of_mem_groupByKey key hg hmem).symm⟩

end GroupByKey

theorem Branch.perm_sort (branches : List Branch) : (Branch.sort branches).Perm branches :=
  List.mergeSort_perm branches _

namespace Folder

/-- The branches filed in a folder, at any depth. -/
def contents : Folder → List Branch
  | ⟨_, nested, members⟩ => members ++ (nested.map contents).flatten

/-- The nodes of a folder inside `container` and of those nested in it. -/
def categories (container : NodeId) : Folder → List Node
  | ⟨sub, nested, _⟩ =>
    categoryFolderNode container sub ::
      (nested.map (categories (categoryFolderNode container sub).id)).flatten

theorem contents_eq (f : Folder) : f.contents = f.members ++ f.nested.flatMap contents := by
  obtain ⟨sub, nested, members⟩ := f
  rw [contents, List.flatMap_def]

theorem categories_eq (container : NodeId) (f : Folder) :
    f.categories container = categoryFolderNode container f.subCategory ::
      f.nested.flatMap (categories (categoryFolderNode container f.subCategory).id) := by
  obtain ⟨sub, nested, members⟩ := f
  rw [categories, List.flatMap_def]

theorem toBranch_eq (container : NodeId) (f : Folder) :
    f.toBranch container = ⟨categoryFolderNode container f.subCategory,
      Branch.sort (f.nested.map (toBranch (categoryFolderNode container f.subCategory).id) ++
        f.members)⟩ := by
  obtain ⟨sub, nested, members⟩ := f
  rw [toBranch]

section File

variable {branches : List Branch}

theorem file_cons_cons (sub next : SubCategory) (rest : List SubCategory)
    (folders : List Folder) :
    file (sub :: next :: rest) branches folders =
      upsert sub (fun f => { f with nested := file (next :: rest) branches f.nested }) folders :=
  rfl

theorem perm_upsert {sub : SubCategory} {change : Folder → Folder}
    (hchange : ∀ f, (change f).contents.Perm (f.contents ++ branches)) (folders : List Folder) :
    ((upsert sub change folders).flatMap contents).Perm
      (folders.flatMap contents ++ branches) := by
  induction folders with
  | nil => simpa [upsert, contents] using hchange ⟨sub, [], []⟩
  | cons f rest ih =>
    rw [upsert]
    split
    · rw [List.flatMap_cons, List.flatMap_cons, List.append_assoc]
      refine ((hchange f).append_right _).trans ?_
      rw [List.append_assoc]
      exact List.perm_append_comm.append_left _
    · rw [List.flatMap_cons, List.flatMap_cons, List.append_assoc]
      exact ih.append_left _

theorem perm_file {path : List SubCategory} (hpath : path ≠ []) (folders : List Folder) :
    ((file path branches folders).flatMap contents).Perm
      (folders.flatMap contents ++ branches) := by
  induction path generalizing folders with
  | nil => exact absurd rfl hpath
  | cons sub inner ih =>
    cases inner with
    | nil =>
      rw [file]
      refine perm_upsert (fun f => ?_) folders
      rw [contents_eq, contents_eq, List.append_assoc, List.append_assoc]
      exact List.perm_append_comm.append_left _
    | cons next rest =>
      rw [file_cons_cons]
      refine perm_upsert (fun f => ?_) folders
      rw [contents_eq, contents_eq, List.append_assoc]
      exact (ih (List.cons_ne_nil _ _) f.nested).append_left _

/-- Folders side by side are of different sub-categories of the catalog, and so are those nested in
them. -/
inductive Tidy (catalog : Catalog) : List Folder → Prop
  | intro {folders : List Folder}
      (known : ∀ f ∈ folders, catalog.subCategory? f.subCategory.id = some f.subCategory)
      (apart : (folders.map fun f => f.subCategory.id).Nodup)
      (nested : ∀ f ∈ folders, Tidy catalog f.nested) : Tidy catalog folders

variable {catalog : Catalog}

theorem Tidy.nil : Tidy catalog [] := .intro (by simp) (by simp) (by simp)

theorem tidy_cons {f : Folder} {rest : List Folder} : Tidy catalog (f :: rest) ↔
    catalog.subCategory? f.subCategory.id = some f.subCategory ∧
      f.subCategory.id ∉ rest.map (fun g => g.subCategory.id) ∧
      Tidy catalog f.nested ∧ Tidy catalog rest := by
  constructor
  · rintro ⟨hknown, hapart, hnested⟩
    rw [List.forall_mem_cons] at hknown hnested
    rw [List.map_cons, List.nodup_cons] at hapart
    exact ⟨hknown.1, hapart.1, hnested.1, .intro hknown.2 hapart.2 hnested.2⟩
  · rintro ⟨hknown, hapart, hnested, hrest⟩
    cases hrest with
    | intro hknowns haparts hnesteds =>
      exact .intro (List.forall_mem_cons.mpr ⟨hknown, hknowns⟩)
        (List.nodup_cons.mpr ⟨hapart, haparts⟩) (List.forall_mem_cons.mpr ⟨hnested, hnesteds⟩)

theorem id_mem_upsert {sub : SubCategory} {change : Folder → Folder}
    (hsub : ∀ f, (change f).subCategory = f.subCategory) {folders : List Folder}
    {id : SubCategoryId}
    (h : id ∈ (upsert sub change folders).map fun f => f.subCategory.id) :
    id = sub.id ∨ id ∈ folders.map fun f => f.subCategory.id := by
  induction folders with
  | nil => simpa [upsert, hsub] using h
  | cons f rest ih =>
    rw [upsert] at h
    split at h
    · exact .inr (by simpa [hsub] using h)
    · rw [List.map_cons, List.mem_cons] at h ⊢
      rcases h with hfirst | hrest
      · exact .inr (.inl hfirst)
      · exact (ih hrest).imp_right .inr

theorem tidy_upsert {sub : SubCategory} {change : Folder → Folder}
    (hknown : catalog.subCategory? sub.id = some sub)
    (hsub : ∀ f, (change f).subCategory = f.subCategory)
    (hchange : ∀ f, Tidy catalog f.nested → Tidy catalog (change f).nested)
    {folders : List Folder} (h : Tidy catalog folders) :
    Tidy catalog (upsert sub change folders) := by
  induction folders with
  | nil =>
    rw [upsert, tidy_cons, hsub]
    exact ⟨hknown, by simp, hchange _ .nil, .nil⟩
  | cons f rest ih =>
    obtain ⟨hf, hapart, hnested, hrest⟩ := tidy_cons.mp h
    rw [upsert]
    split
    · rw [tidy_cons, hsub]
      exact ⟨hf, hapart, hchange f hnested, hrest⟩
    · rename_i hne
      refine tidy_cons.mpr ⟨hf, fun hmem => ?_, hnested, ih hrest⟩
      exact (id_mem_upsert hsub hmem).elim hne hapart

theorem tidy_file {path : List SubCategory}
    (hpath : ∀ sub ∈ path, catalog.subCategory? sub.id = some sub)
    {folders : List Folder} (h : Tidy catalog folders) :
    Tidy catalog (file path branches folders) := by
  induction path generalizing folders with
  | nil => simpa [file] using h
  | cons sub inner ih =>
    rw [List.forall_mem_cons] at hpath
    cases inner with
    | nil =>
      rw [file]
      refine tidy_upsert hpath.1 ?_ ?_ h
      · exact fun _ => rfl
      · exact fun _ hnested => hnested
    | cons next rest =>
      rw [file_cons_cons]
      refine tidy_upsert hpath.1 ?_ ?_ h
      · exact fun _ => rfl
      · exact fun _ hnested => ih hpath.2 hnested

end File

/-- What is gathered from a finished folder comes from the folders and from what is filed in them,
where folders give something of their own and all that is gathered from what they hold. -/
theorem perm_gather_toBranch {α : Type} {gather : Branch → List α} (own : Node → List α)
    (hgather : ∀ container sub children, gather ⟨categoryFolderNode container sub, children⟩ =
      own (categoryFolderNode container sub) ++ children.flatMap gather) (container : NodeId)
    (f : Folder) : (gather (f.toBranch container)).Perm
      ((f.categories container).flatMap own ++ f.contents.flatMap gather) := by
  induction f using Folder.induct generalizing container with
  | step sub nested members ih =>
    let inner := (categoryFolderNode container sub).id
    have hnested : (nested.flatMap fun f => gather (f.toBranch inner)).Perm
        ((nested.flatMap (categories inner)).flatMap own ++
          (nested.flatMap contents).flatMap gather) := by
      rw [List.flatMap_assoc, List.flatMap_assoc]
      exact (List.Perm.flatMap_left nested fun f hf => ih f hf inner).trans
        (List.flatMap_append_perm nested _ _).symm
    have hsorted := (Branch.perm_sort (nested.map (toBranch inner) ++ members)).flatMap_right gather
    rw [List.flatMap_append, List.flatMap_map] at hsorted
    rw [toBranch_eq, hgather, categories_eq, contents_eq, List.flatMap_cons, List.flatMap_append,
      List.append_assoc]
    refine (hsorted.trans ((hnested.append_right _).trans ?_)).append_left _
    rw [List.append_assoc]
    exact List.perm_append_comm.append_left _

theorem nodes_category (container : NodeId) (sub : SubCategory) (children : List Branch) :
    Branch.nodes ⟨categoryFolderNode container sub, children⟩ =
      [categoryFolderNode container sub] ++ children.flatMap Branch.nodes :=
  Branch.nodes_eq _

/-- A finished folder has the nodes of the folders and those of the branches filed in them. -/
theorem perm_nodes_toBranch (container : NodeId) (f : Folder) :
    (f.toBranch container).nodes.Perm
      (f.categories container ++ f.contents.flatMap Branch.nodes) := by
  have hperm := perm_gather_toBranch (fun n => [n]) nodes_category container f
  rwa [List.flatMap_singleton'] at hperm

end Folder

section ByType

variable {clusters : List (TypeId × Branch)}

theorem perm_byType (clusters : List (TypeId × Branch)) :
    ((byType clusters).flatMap (·.2)).Perm (clusters.map (·.2)) := by
  have hgroups := (perm_groupByKey (fun c : TypeId × Branch => c.1) clusters).map (·.2)
  rw [List.map_flatMap] at hgroups
  rw [byType, List.flatMap_map]
  exact hgroups

theorem nodup_byType (clusters : List (TypeId × Branch)) :
    ((byType clusters).map (·.1)).Nodup := by
  have hkeys := nodup_keys_groupByKey (fun c : TypeId × Branch => c.1) clusters
  rw [byType, List.map_map]
  exact hkeys

theorem mem_of_mem_byType {typed : TypeId × List Branch} (htyped : typed ∈ byType clusters)
    {b : Branch} (hb : b ∈ typed.2) : (typed.1, b) ∈ clusters := by
  obtain ⟨g, hg, rfl⟩ := List.mem_map.mp htyped
  obtain ⟨c, hc, rfl⟩ := List.mem_map.mp hb
  have hkey := key_of_mem_groupByKey (fun c : TypeId × Branch => c.1) hg hc
  have hmem := (perm_groupByKey (fun c : TypeId × Branch => c.1) clusters).mem_iff.mp
    (List.mem_flatMap.mpr ⟨g, hg, hc⟩)
  rwa [← hkey]

theorem exists_mem_byType {c : TypeId × Branch} (h : c ∈ clusters) :
    ∃ typed ∈ byType clusters, typed.1 = c.1 ∧ c.2 ∈ typed.2 := by
  have hmem := (perm_groupByKey (fun c : TypeId × Branch => c.1) clusters).mem_iff.mpr h
  obtain ⟨g, hg, hc⟩ := List.mem_flatMap.mp hmem
  exact ⟨_, List.mem_map_of_mem hg, (key_of_mem_groupByKey _ hg hc).symm, List.mem_map_of_mem hc⟩

end ByType

section Shelf

variable (catalog : Catalog) (container : NodeId) (clusters : List (TypeId × Branch))

/-- What is put below a node, before it is filed under sub-categories. -/
def filed : List Branch :=
  (byType clusters).flatMap fun typed => typedBranches container (catalog.type? typed.1) typed.2

/-- What lies below a node before it is sorted. -/
def shelf : Shelf := (byType clusters).foldl (Shelf.add catalog container) ⟨[], []⟩

theorem arrangeBelow_eq : arrangeBelow catalog container clusters =
    Branch.sort ((shelf catalog container clusters).loose ++
      (shelf catalog container clusters).folders.map (Folder.toBranch container)) :=
  rfl

variable {catalog} in
theorem known_of_mem_climb {visited : List SubCategoryId} {chain : List SubCategory}
    (hchain : ∀ s ∈ chain, catalog.subCategory? s.id = some s) {next : Option SubCategoryId}
    {s : SubCategory} (h : s ∈ climb catalog visited chain next) :
    catalog.subCategory? s.id = some s := by
  induction visited, chain, next using climb.induct catalog with
  | case1 visited chain => exact hchain s (by rwa [climb_none] at h)
  | case2 visited chain id hvisited => exact hchain s (by rwa [climb_of_visited hvisited] at h)
  | case3 visited chain id hnew hunknown => exact hchain s (by rwa [climb_of_unknown hunknown] at h)
  | case4 visited chain id hnew first hfirst ih =>
    rw [climb_of_known hnew hfirst] at h
    refine ih (List.forall_mem_append.mpr ⟨hchain, List.forall_mem_singleton.mpr ?_⟩) h
    rw [Catalog.id_of_subCategory? hfirst, hfirst]

variable {catalog} in
theorem known_of_mem_subCategoryPath {t : Option ResourceType} {s : SubCategory}
    (h : s ∈ subCategoryPath catalog t) : catalog.subCategory? s.id = some s := by
  unfold subCategoryPath at h
  split at h
  · simp at h
  · exact known_of_mem_climb (by simp) (List.mem_reverse.mp h)

section Add

variable {catalog container}

theorem Shelf.perm_add (s : Shelf) (typed : TypeId × List Branch) :
    ((s.add catalog container typed).loose ++
        (s.add catalog container typed).folders.flatMap Folder.contents).Perm
      (s.loose ++ s.folders.flatMap Folder.contents ++
        typedBranches container (catalog.type? typed.1) typed.2) := by
  rw [Shelf.add]
  split
  · rw [List.append_assoc, List.append_assoc]
    exact List.perm_append_comm.append_left _
  · rename_i path hpath
    rw [List.append_assoc]
    exact (Folder.perm_file hpath s.folders).append_left _

theorem Shelf.tidy_add {s : Shelf} (h : Folder.Tidy catalog s.folders)
    (typed : TypeId × List Branch) :
    Folder.Tidy catalog (s.add catalog container typed).folders := by
  rw [Shelf.add]
  split
  · exact h
  · exact Folder.tidy_file (fun _ hsub => known_of_mem_subCategoryPath hsub) h

end Add

theorem perm_shelf : ((shelf catalog container clusters).loose ++
    (shelf catalog container clusters).folders.flatMap Folder.contents).Perm
      (filed catalog container clusters) := by
  have hfold (s : Shelf) (typed : List (TypeId × List Branch)) :
      ((typed.foldl (Shelf.add catalog container) s).loose ++
          (typed.foldl (Shelf.add catalog container) s).folders.flatMap Folder.contents).Perm
        (s.loose ++ s.folders.flatMap Folder.contents ++
          typed.flatMap fun t => typedBranches container (catalog.type? t.1) t.2) := by
    induction typed generalizing s with
    | nil => simp
    | cons first rest ih =>
      rw [List.foldl_cons, List.flatMap_cons, ← List.append_assoc]
      exact (ih _).trans ((s.perm_add first).append_right _)
  exact hfold ⟨[], []⟩ (byType clusters)

theorem tidy_shelf : Folder.Tidy catalog (shelf catalog container clusters).folders := by
  have hfold (s : Shelf) (h : Folder.Tidy catalog s.folders)
      (typed : List (TypeId × List Branch)) :
      Folder.Tidy catalog (typed.foldl (Shelf.add catalog container) s).folders := by
    induction typed generalizing s with
    | nil => exact h
    | cons first rest ih => exact ih _ (Shelf.tidy_add h first)
  exact hfold ⟨[], []⟩ .nil (byType clusters)

theorem perm_gather_arrangeBelow {α : Type} {gather : Branch → List α} (own : Node → List α)
    (hgather : ∀ container sub children,
      gather ⟨categoryFolderNode container sub, children⟩ =
        own (categoryFolderNode container sub) ++ children.flatMap gather) :
    ((arrangeBelow catalog container clusters).flatMap gather).Perm
      (((shelf catalog container clusters).folders.flatMap
          (Folder.categories container)).flatMap own ++
        (filed catalog container clusters).flatMap gather) := by
  have hfiled := (perm_shelf catalog container clusters).flatMap_right gather
  rw [arrangeBelow_eq]
  generalize shelf catalog container clusters = s at hfiled ⊢
  rw [List.flatMap_append] at hfiled
  have hfolders : (s.folders.flatMap fun f => gather (f.toBranch container)).Perm
      ((s.folders.flatMap (Folder.categories container)).flatMap own ++
        (s.folders.flatMap Folder.contents).flatMap gather) := by
    rw [List.flatMap_assoc, List.flatMap_assoc]
    exact (List.Perm.flatMap_left s.folders fun f _ =>
      Folder.perm_gather_toBranch own hgather container f).trans
        (List.flatMap_append_perm s.folders _ _).symm
  calc
    (Branch.sort (s.loose ++ s.folders.map (Folder.toBranch container))).flatMap gather
    _ ~ (s.loose ++ s.folders.map (Folder.toBranch container)).flatMap gather :=
      (Branch.perm_sort _).flatMap_right _
    _ = s.loose.flatMap gather ++ s.folders.flatMap fun f => gather (f.toBranch container) := by
      rw [List.flatMap_append, List.flatMap_map]
    _ ~ s.loose.flatMap gather ++
          ((s.folders.flatMap (Folder.categories container)).flatMap own ++
            (s.folders.flatMap Folder.contents).flatMap gather) := hfolders.append_left _
    _ ~ (s.folders.flatMap (Folder.categories container)).flatMap own ++
          (s.loose.flatMap gather ++ (s.folders.flatMap Folder.contents).flatMap gather) :=
      List.perm_append_comm_assoc _ _ _
    _ ~ (s.folders.flatMap (Folder.categories container)).flatMap own ++
          (filed catalog container clusters).flatMap gather := hfiled.append_left _

theorem perm_nodes_arrangeBelow :
    ((arrangeBelow catalog container clusters).flatMap Branch.nodes).Perm
      ((shelf catalog container clusters).folders.flatMap (Folder.categories container) ++
        (filed catalog container clusters).flatMap Branch.nodes) := by
  have hperm := perm_gather_arrangeBelow catalog container clusters (fun n => [n])
    Folder.nodes_category
  rwa [List.flatMap_singleton'] at hperm

/-- Behind the folders of sub-categories is what was filed in them. -/
theorem perm_front_arrangeBelow {p : NodeKind → Bool}
    (hp : ∀ container sub, p (categoryFolderNode container sub).kind = true) :
    ((arrangeBelow catalog container clusters).flatMap (Branch.front p)).Perm
      ((filed catalog container clusters).flatMap (Branch.front p)) := by
  have hfront (container : NodeId) (sub : SubCategory) (children : List Branch) :
      Branch.front p ⟨categoryFolderNode container sub, children⟩ =
        [] ++ children.flatMap (Branch.front p) :=
    Branch.front_of_pos (hp container sub)
  have hnothing (folders : List Node) : folders.flatMap (fun _ => ([] : List Branch)) = [] :=
    List.flatMap_eq_nil_iff.mpr fun _ _ => rfl
  have hperm := perm_gather_arrangeBelow catalog container clusters (fun _ => []) hfront
  rwa [hnothing, List.nil_append] at hperm

/-- The node of the folder of a type that may occur more than once. -/
def typeFolderNode? (container : NodeId) : Option ResourceType → Option Node
  | some t => if t.singleton then none else some (typeFolder container t []).node
  | none => none

theorem typeFolderNode?_eq_some_iff {container : NodeId} {type? : Option ResourceType} {n : Node} :
    typeFolderNode? container type? = some n ↔
      ∃ t, type? = some t ∧ t.singleton = false ∧ (typeFolder container t []).node = n := by
  cases type? with
  | none => simp [typeFolderNode?]
  | some t =>
    by_cases hsingleton : t.singleton = true
    · simp [typeFolderNode?, hsingleton]
    · simp [typeFolderNode?, hsingleton]

theorem perm_nodes_typedBranches (t : Option ResourceType) (members : List Branch) :
    ((typedBranches container t members).flatMap Branch.nodes).Perm
      ((typeFolderNode? container t).toList ++ members.flatMap Branch.nodes) := by
  cases t with
  | none => exact .refl _
  | some t =>
    by_cases hsingleton : t.singleton = true
    · simp [typedBranches, typeFolderNode?, hsingleton]
    · have hsorted := (Branch.perm_sort members).flatMap_right Branch.nodes
      simp only [typedBranches, typeFolderNode?, hsingleton, Bool.false_eq_true, if_false,
        List.flatMap_singleton, Branch.nodes_eq (typeFolder container t members),
        Option.toList_some, List.singleton_append]
      exact hsorted.cons _

variable {catalog container clusters} in
theorem mem_filed {b : Branch} : b ∈ filed catalog container clusters ↔
    ∃ typed ∈ byType clusters,
      (b ∈ typed.2 ∧ typeFolderNode? container (catalog.type? typed.1) = none) ∨
        ∃ t, catalog.type? typed.1 = some t ∧ t.singleton = false ∧
          b = typeFolder container t typed.2 := by
  rw [filed, List.mem_flatMap]
  refine exists_congr fun typed => and_congr_right fun _ => ?_
  cases catalog.type? typed.1 with
  | none => simp [typedBranches, typeFolderNode?]
  | some t =>
    by_cases hsingleton : t.singleton = true
    · simp [typedBranches, typeFolderNode?, hsingleton]
    · simp [typedBranches, typeFolderNode?, hsingleton]

theorem perm_nodes_filed :
    ((filed catalog container clusters).flatMap Branch.nodes).Perm
      (((byType clusters).filterMap fun typed =>
          typeFolderNode? container (catalog.type? typed.1)) ++
        clusters.flatMap fun c => c.2.nodes) := by
  have hmembers := (perm_byType clusters).flatMap_right Branch.nodes
  rw [List.flatMap_assoc, List.flatMap_map] at hmembers
  rw [filed, List.flatMap_assoc, List.filterMap_eq_flatMap_toList]
  calc
    (byType clusters).flatMap (fun typed =>
        (typedBranches container (catalog.type? typed.1) typed.2).flatMap Branch.nodes)
    _ ~ (byType clusters).flatMap (fun typed =>
          (typeFolderNode? container (catalog.type? typed.1)).toList ++
            typed.2.flatMap Branch.nodes) :=
      List.Perm.flatMap_left _ fun typed _ => perm_nodes_typedBranches _ _ _
    _ ~ ((byType clusters).flatMap fun typed =>
          (typeFolderNode? container (catalog.type? typed.1)).toList) ++
        (byType clusters).flatMap fun typed => typed.2.flatMap Branch.nodes :=
      (List.flatMap_append_perm _ _ _).symm
    _ ~ ((byType clusters).flatMap fun typed =>
          (typeFolderNode? container (catalog.type? typed.1)).toList) ++
        clusters.flatMap fun c => c.2.nodes := hmembers.append_left _

end Shelf

section Below

/-- The key of a cluster below the node that has `key`. -/
def childKey (key : ClusterKey) (c : Cluster) : ClusterKey := key.child c.typeId c.resourceKey

variable (catalog : Catalog) (key : ClusterKey)

def branchOf (c : Cluster) : Branch := clusterBranch catalog ⟨key.text⟩ key c

def branchesOf (clusters : List Cluster) : List (TypeId × Branch) :=
  clusters.map fun c => (c.typeId, branchOf catalog key c)

/-- What lies directly below the node that has `key`. -/
def below (clusters : List Cluster) : List Branch :=
  arrangeBelow catalog ⟨key.text⟩ (branchesOf catalog key clusters)

theorem branchOf_node (c : Cluster) : (branchOf catalog key c).node =
    clusterNode ⟨key.text⟩ (childKey key c) (catalog.type? c.typeId) c := by
  obtain ⟨typeId, resourceKey, name, members, clusterSize, children⟩ := c
  rw [branchOf, clusterBranch]
  rfl

theorem branchOf_children (c : Cluster) :
    (branchOf catalog key c).children = below catalog (childKey key c) c.children := by
  obtain ⟨typeId, resourceKey, name, members, clusterSize, children⟩ := c
  rw [branchOf, clusterBranch, List.zip_map']
  rfl

theorem groupBranch_children (g : ResourceGroup) (clusters : List Cluster) :
    (groupBranch catalog g clusters).children = below catalog (.root g.id) clusters :=
  rfl

variable {catalog} in
theorem exists_of_mem_byType {key : ClusterKey} {clusters : List Cluster}
    {typed : TypeId × List Branch} (htyped : typed ∈ byType (branchesOf catalog key clusters))
    {b : Branch} (hb : b ∈ typed.2) :
    ∃ c ∈ clusters, c.typeId = typed.1 ∧ branchOf catalog key c = b := by
  obtain ⟨c, hc, heq⟩ := List.mem_map.mp (mem_of_mem_byType htyped hb)
  obtain ⟨hid, hbranch⟩ := Prod.mk.inj heq
  exact ⟨c, hc, hid, hbranch⟩

/-- Below a node are the folders of sub-categories, those of types, and the branches of its
clusters. -/
theorem perm_nodes_below (clusters : List Cluster) :
    ((below catalog key clusters).flatMap Branch.nodes).Perm
      ((shelf catalog ⟨key.text⟩ (branchesOf catalog key clusters)).folders.flatMap
          (Folder.categories ⟨key.text⟩) ++
        (((byType (branchesOf catalog key clusters)).filterMap fun typed =>
            typeFolderNode? ⟨key.text⟩ (catalog.type? typed.1)) ++
          clusters.flatMap fun c => (branchOf catalog key c).nodes)) := by
  have hfiled := perm_nodes_filed catalog ⟨key.text⟩ (branchesOf catalog key clusters)
  rw [branchesOf, List.flatMap_map] at hfiled
  exact (perm_nodes_arrangeBelow _ _ _).trans (hfiled.append_left _)

end Below

end Tree

end FleetConsole
