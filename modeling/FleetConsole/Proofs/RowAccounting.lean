import FleetConsole.Proofs.ParentCircles
import FleetConsole.Proofs.RowOrder

/-! A build accounts for each of its rows once: a row gets a node, or it is remarked as a repetition
or as part of a circle of parents. Whatever else the tree holds are folders. -/
namespace FleetConsole.Tree

def NodeKind.isResource : NodeKind → Bool
  | .resource .. => true
  | _ => false

namespace Diagnostic

def isDuplicate : Diagnostic → Bool
  | .duplicateEntity _ => true
  | _ => false

def isParentCycle : Diagnostic → Bool
  | .parentCycle _ => true
  | _ => false

/-- Whether the remark is on a row that is left out. -/
def isOmission (d : Diagnostic) : Bool := d.isDuplicate || d.isParentCycle

end Diagnostic

section Rows

theorem length_splitRepeats (seen : List ResourceId) (rows : List Resource) :
    (splitRepeats seen rows).1.length + (splitRepeats seen rows).2.length = rows.length := by
  induction rows generalizing seen with
  | nil => rfl
  | cons r rest ih =>
    by_cases hr : r.id ∈ seen
    · have hrest := ih seen
      simp only [splitRepeats, List.contains_eq_mem, hr, decide_true, if_true, List.length_cons]
      omega
    · have hrest := ih (r.id :: seen)
      simp only [splitRepeats, List.contains_eq_mem, hr, decide_false, Bool.false_eq_true,
        if_false, List.length_cons]
      omega

/-- An id is repeated by all rows that have it but the first. -/
theorem count_splitRepeats (seen : List ResourceId) (rows : List Resource) (id : ResourceId) :
    (splitRepeats seen rows).2.count id =
      rows.countP (·.id = id) - if id ∈ seen then 0 else 1 := by
  induction rows generalizing seen with
  | nil => simp [splitRepeats]
  | cons r rest ih =>
    by_cases hr : r.id ∈ seen
    · have hsplit : (splitRepeats seen (r :: rest)).2 = r.id :: (splitRepeats seen rest).2 := by
        simp [splitRepeats, hr]
      rw [hsplit, List.count_cons, ih, List.countP_cons]
      by_cases hid : r.id = id
      · subst hid
        simp [hr]
      · simp [hid]
    · have hsplit : (splitRepeats seen (r :: rest)).2 = (splitRepeats (r.id :: seen) rest).2 := by
        simp [splitRepeats, hr]
      rw [hsplit, ih, List.countP_cons]
      by_cases hid : r.id = id
      · subst hid
        simp [hr]
      · simp [hid, Ne.symm hid]

end Rows

namespace Surroundings

variable {s : Surroundings}

/-- The node of a row shows what the row and its type say. -/
structure Shows (s : Surroundings) (r : Resource) (n : Node) : Prop where
  id : n.id = NodeId.resource r.id
  kind : n.kind = .resource r.id r.typeId ((s.catalog.type? r.typeId).map ResourceType.category)
    r.availability
  name : n.name = Text.escapeHtml r.name
  description : n.description = r.description.map Text.escapeHtml
  isFolder : n.isFolder = (s.catalog.type? r.typeId).any ResourceType.hasChildTypes
  locked : n.locked = s.locked.contains r.id

theorem shows_ownNode (batch : List Resource) (r : Resource) (anchor : Option ResourceId) :
    s.Shows r (s.ownNode batch r anchor) := by
  cases anchor <;> exact ⟨rfl, rfl, rfl, rfl, rfl, rfl⟩

theorem Shows.isResource {r : Resource} {n : Node} (h : s.Shows r n) :
    n.kind.isResource = true := by
  rw [h.kind]
  rfl

section Nodes

theorem isResource_of_isSynthetic {k : NodeKind} (h : k.isSynthetic = true) :
    k.isResource = false := by
  cases k with
  | resource => simp [NodeKind.isSynthetic, NodeKind.nodeClass] at h
  | _ => rfl

theorem locked_of_mem_categoryNodes {anchor : ResourceId} {parent : NodeId}
    {subs : List SubCategory} {n : Node} (h : n ∈ categoryNodes anchor parent subs) :
    n.locked = false := by
  induction subs generalizing parent with
  | nil => simp [categoryNodes] at h
  | cons sub inner ih =>
    rcases List.mem_cons.mp h with rfl | hinner
    · rfl
    · exact ih hinner

theorem unlocked_of_mem_foldersBelow {batch : List Resource} {p : ResourceId} {r : Resource}
    {n : Node} (h : n ∈ s.foldersBelow batch p r) :
    n.kind.isSynthetic = true ∧ n.locked = false := by
  rcases s.cases_of_mem_foldersBelow batch h with ⟨t, -, rfl⟩ | ⟨sub, hcategory⟩
  · exact ⟨rfl, rfl⟩
  · have hclass := nodeClass_of_mem_categoryNodes hcategory
    exact ⟨by simp [NodeKind.isSynthetic, hclass], locked_of_mem_categoryNodes hcategory⟩

theorem isResource_of_mem_folders {batch : List Resource} {r : Resource}
    {anchor : Option ResourceId} {n : Node} (h : n ∈ s.folders batch r anchor) :
    n.kind.isResource = false := by
  cases anchor with
  | none => simp [folders] at h
  | some p => exact isResource_of_isSynthetic (unlocked_of_mem_foldersBelow h).1

theorem filter_foldl_insertMissing {P : Node → Bool} {added : List Node}
    (h : ∀ n ∈ added, P n = false) (nodes : List Node) :
    (added.foldl s.insertMissing nodes).filter P = nodes.filter P := by
  induction added generalizing nodes with
  | nil => rfl
  | cons n added ih =>
    obtain ⟨hn, hadded⟩ := List.forall_mem_cons.mp h
    rw [List.foldl_cons, ih hadded, insertMissing]
    split
    · rfl
    · simp [hn]

/-- Placing a row adds one node of a resource, behind those there are. -/
theorem resources_place (batch : List Resource) (b : Build) (r : Resource) :
    (s.place batch b r).nodes.filter (·.kind.isResource) =
      b.nodes.filter (·.kind.isResource) ++ [s.ownNode batch r (s.anchor? b r)] := by
  have hown := (s.shows_ownNode batch r (s.anchor? b r)).isResource
  rw [nodes_place, List.filter_append,
    filter_foldl_insertMissing (fun n hn => isResource_of_mem_folders hn)]
  simp [hown]

theorem resources_placing (rows placed : List Resource) :
    List.Forall₂ s.Shows placed
      ((s.placing rows placed).nodes.filter (·.kind.isResource)) := by
  induction placed using List.reverseRecOn with
  | nil => exact .nil
  | append_singleton placed r ih =>
    rw [placing_append_singleton, resources_place]
    exact List.rel_append ih (.cons (shows_ownNode _ _ _) .nil)

theorem distinguished_of_isResource (nodes : List Node) {n : Node}
    (h : n.kind.isResource = true) : distinguished s.catalog nodes n = n := by
  cases hkind : n.kind <;> simp_all [distinguished, NodeKind.isResource]

@[simp] theorem distinguished_kind (nodes : List Node) (n : Node) :
    (distinguished s.catalog nodes n).kind = n.kind := by
  unfold distinguished
  repeat' split
  all_goals rfl

@[simp] theorem distinguished_locked (nodes : List Node) (n : Node) :
    (distinguished s.catalog nodes n).locked = n.locked := by
  unfold distinguished
  repeat' split
  all_goals rfl

theorem resources_build (rows : List Resource) :
    List.Forall₂ s.Shows (placedRows rows)
      ((s.build rows).nodes.filter (·.kind.isResource)) := by
  have hsame : (s.build rows).nodes.filter (·.kind.isResource) =
      (s.placing rows (placedRows rows)).nodes.filter (·.kind.isResource) := by
    rw [build_nodes, disambiguate_eq_map, List.filter_map]
    simp only [Function.comp_def, distinguished_kind]
    refine (List.map_congr_left fun n hn => ?_).trans (List.map_id _)
    exact distinguished_of_isResource _ (List.mem_filter.mp hn).2
  rw [hsame]
  exact resources_placing rows (placedRows rows)

/-- A row that is placed is shown. -/
theorem exists_shows {rows : List Resource} {r : Resource} (h : r ∈ placedRows rows) :
    ∃ n ∈ (s.build rows).nodes, s.Shows r n :=
  ⟨_, List.mem_of_find?_eq_some (s.node?_resource h), shows_ownNode _ _ _⟩

theorem id_mem_placedRows_of_mem_build {rows : List Resource} {id : ResourceId}
    (h : NodeId.resource id ∈ (s.build rows).nodes.map Node.id) :
    id ∈ (placedRows rows).map Resource.id := by
  by_contra habsent
  obtain ⟨n, hn, hid⟩ := List.mem_map.mp h
  have hnode := s.mem_nodes_build_iff.mp hn
  rw [hid, s.node?_resource_eq_none habsent] at hnode
  cases hnode

/-- A node that is not that of a resource is a folder, and no folder is locked. -/
theorem unlocked_of_mem_build {rows : List Resource} {n : Node} (h : n ∈ (s.build rows).nodes)
    (hn : n.kind.isResource = false) : n.kind.isSynthetic = true ∧ n.locked = false := by
  rw [build_nodes, disambiguate_eq_map] at h
  obtain ⟨m, hm, rfl⟩ := List.mem_map.mp h
  rw [distinguished_kind] at hn ⊢
  rw [distinguished_locked]
  rcases cases_of_mem_offers (s.mem_offers_of_mem_placing hm) with ⟨p, r, hfolder⟩ | ⟨r, -, rfl⟩
  · exact unlocked_of_mem_foldersBelow hfolder
  · rw [(shows_ownNode _ _ _).isResource] at hn
    exact absurd hn (by decide)

end Nodes

section Diagnostics

variable {rows : List Resource}

theorem isOmission_of_remark? {r : Resource} {anchor : Option ResourceId} {d : Diagnostic}
    (h : s.remark? r anchor = some d) : d.isOmission = false := by
  cases anchor with
  | none =>
    obtain ⟨p, -, rfl⟩ := Option.map_eq_some_iff.mp h
    rfl
  | some p =>
    simp only [remark?] at h
    repeat' split at h
    all_goals cases h
    all_goals rfl

theorem filter_noted {P : Diagnostic → Bool} {new : Option Diagnostic}
    (h : ∀ d, new = some d → P d = false) (remarks : List Diagnostic) :
    (noted remarks new).filter P = remarks.filter P := by
  cases new with
  | none => rfl
  | some d =>
    rw [noted]
    split
    · rfl
    · simp [h d rfl]

theorem isOmission_of_mem_beginning {d : Diagnostic} (h : d ∈ (beginning rows).diagnostics) :
    d.isOmission = true := by
  rcases List.mem_append.mp h with hmem | hmem <;> obtain ⟨_, -, rfl⟩ := List.mem_map.mp hmem <;>
    rfl

/-- The remarks on rows left out are made before any row is placed. -/
theorem omissions_placing (placed : List Resource) :
    (s.placing rows placed).diagnostics.filter (·.isOmission) = (beginning rows).diagnostics := by
  induction placed using List.reverseRecOn with
  | nil => exact List.filter_eq_self.mpr fun d hd => isOmission_of_mem_beginning hd
  | append_singleton placed r ih =>
    rw [placing_append_singleton, diagnostics_place,
      filter_noted (fun d hd => isOmission_of_remark? hd), ih]

theorem omissions_build :
    (s.build rows).diagnostics.filter (·.isOmission) = (beginning rows).diagnostics :=
  omissions_placing (placedRows rows)

theorem count_omission {d : Diagnostic} (h : d.isOmission = true) :
    (s.build rows).diagnostics.count d = (beginning rows).diagnostics.count d := by
  rw [← s.omissions_build, List.count_filter h]

theorem countP_omissions {P : Diagnostic → Bool} (h : ∀ d, P d = true → d.isOmission = true) :
    (s.build rows).diagnostics.countP P = (beginning rows).diagnostics.countP P := by
  rw [← s.omissions_build, List.countP_filter]
  refine List.countP_congr fun d _ => ?_
  grind

theorem remark?_eq_orphanReanchored_iff {r : Resource} {anchor : Option ResourceId}
    {id p : ResourceId} : s.remark? r anchor = some (.orphanReanchored id p) ↔
      anchor = none ∧ r.id = id ∧ r.parentId = some p := by
  cases anchor with
  | none =>
    simp only [remark?, Option.map_eq_some_iff, Diagnostic.orphanReanchored.injEq, true_and]
    constructor
    · rintro ⟨p, hp, rfl, rfl⟩
      exact ⟨rfl, hp⟩
    · rintro ⟨rfl, hp⟩
      exact ⟨p, hp, rfl, rfl⟩
  | some q =>
    simp only [remark?, reduceCtorEq, false_and, iff_false]
    repeat' split
    all_goals simp

theorem anchorAmong_eq_none_iff (hnodup : (rows.map Resource.id).Nodup) {r : Resource}
    {p : ResourceId} (hp : r.parentId = some p) : s.anchorAmong rows r = none ↔
      p ∉ rows.map Resource.id ∧ NodeId.resource p ∉ s.rendered := by
  simp [anchorAmong, hp, firstRows_of_nodup hnodup]

/-- The orphans are the rows whose parent is neither among the rows nor shown. -/
theorem orphanReanchored_mem_iff (hnodup : (rows.map Resource.id).Nodup) {id p : ResourceId} :
    .orphanReanchored id p ∈ (s.build rows).diagnostics ↔
      ∃ r ∈ placedRows rows, r.id = id ∧ r.parentId = some p ∧
        p ∉ rows.map Resource.id ∧ NodeId.resource p ∉ s.rendered := by
  obtain ⟨-, hmem⟩ := diagnostics_placing (s := s) (nodup_beginning hnodup)
    (List.append_nil (placedRows rows)).symm
  have hbeginning : .orphanReanchored id p ∉ (beginning rows).diagnostics := fun h =>
    absurd (isOmission_of_mem_beginning h) (by simp [Diagnostic.isOmission,
      Diagnostic.isDuplicate, Diagnostic.isParentCycle])
  refine (hmem _).trans ?_
  simp only [hbeginning, false_or, remark?_eq_orphanReanchored_iff]
  refine exists_congr fun r => and_congr_right fun _ => ?_
  constructor
  · rintro ⟨hnone, hid, hp⟩
    exact ⟨hid, hp, (anchorAmong_eq_none_iff hnodup hp).mp hnone⟩
  · rintro ⟨hid, hp, hunknown⟩
    exact ⟨(anchorAmong_eq_none_iff hnodup hp).mpr hunknown, hid, hp⟩

theorem countP_isDuplicate :
    (s.build rows).diagnostics.countP Diagnostic.isDuplicate = (splitRepeats [] rows).2.length := by
  have hrepeats : Diagnostic.isDuplicate ∘ Diagnostic.duplicateEntity = fun _ => true := rfl
  have hcircles : (Diagnostic.isDuplicate ∘ fun r : Resource => Diagnostic.parentCycle r.id) =
      fun _ => false := rfl
  rw [s.countP_omissions fun d hd => by simp [Diagnostic.isOmission, hd], beginning,
    List.countP_append, List.countP_map, List.countP_map, hrepeats, hcircles]
  simp

theorem countP_isParentCycle :
    (s.build rows).diagnostics.countP Diagnostic.isParentCycle = (circularRows rows).length := by
  have hrepeats : Diagnostic.isParentCycle ∘ Diagnostic.duplicateEntity = fun _ => false := rfl
  have hcircles : (Diagnostic.isParentCycle ∘ fun r : Resource => Diagnostic.parentCycle r.id) =
      fun _ => true := rfl
  rw [s.countP_omissions fun d hd => by simp [Diagnostic.isOmission, hd], beginning,
    List.countP_append, List.countP_map, List.countP_map, hrepeats, hcircles]
  simp

theorem count_duplicateEntity (id : ResourceId) :
    (s.build rows).diagnostics.count (.duplicateEntity id) = rows.countP (·.id = id) - 1 := by
  have hinjective : Function.Injective Diagnostic.duplicateEntity := fun _ _ h =>
    Diagnostic.duplicateEntity.inj h
  have hcircles : ((circularRows rows).map fun r => Diagnostic.parentCycle r.id).count
      (.duplicateEntity id) = 0 := List.count_eq_zero.mpr (by simp)
  rw [s.count_omission rfl, beginning, List.count_append, hcircles,
    List.count_map_of_injective _ _ hinjective, count_splitRepeats]
  simp

theorem count_parentCycle_le (id : ResourceId) :
    (s.build rows).diagnostics.count (.parentCycle id) ≤ 1 := by
  have hinjective : Function.Injective Diagnostic.parentCycle := fun _ _ h =>
    Diagnostic.parentCycle.inj h
  have hrepeats : ((splitRepeats [] rows).2.map Diagnostic.duplicateEntity).count
      (.parentCycle id) = 0 := List.count_eq_zero.mpr (by simp)
  have hids := nodup_ids_placedRows_append rows
  rw [List.map_append] at hids
  have hcircles := hids.of_append_right.map hinjective
  rw [List.map_map] at hcircles
  rw [s.count_omission rfl, beginning, List.count_append, hrepeats, Nat.zero_add]
  exact List.nodup_iff_count_le_one.mp hcircles _

theorem parentCycle_mem_iff (id : ResourceId) :
    .parentCycle id ∈ (s.build rows).diagnostics ↔
      ∃ r, rows.find? (·.id = id) = some r ∧ IsCircular rows r := by
  have hmem : .parentCycle id ∈ (s.build rows).diagnostics ↔
      ∃ r ∈ circularRows rows, r.id = id := by
    rw [← List.count_pos_iff, s.count_omission rfl, List.count_pos_iff, beginning]
    simp
  rw [hmem]
  constructor
  · rintro ⟨r, hr, rfl⟩
    exact ⟨r, mem_circularRows_iff.mp hr⟩
  · rintro ⟨r, hfind, hcircular⟩
    obtain rfl : r.id = id := by simpa using List.find?_some hfind
    exact ⟨r, mem_circularRows_iff.mpr ⟨hfind, hcircular⟩, rfl⟩

end Diagnostics

/-- How the nodes and remarks of a build account for its rows. -/
structure Accounts (s : Surroundings) (rows : List Resource) (b : Build) : Prop where
  /-- The nodes of resources: one for each row that is placed, in the order of placing. -/
  shown : List.Forall₂ s.Shows (placedRows rows) (b.nodes.filter (·.kind.isResource))
  placed : ∀ r, r ∈ placedRows rows ↔ rows.find? (·.id = r.id) = some r ∧ ¬IsCircular rows r
  placed_once : ((placedRows rows).map Resource.id).Nodup
  folders : ∀ n ∈ b.nodes, n.kind.isResource = false →
    n.kind.isSynthetic = true ∧ n.locked = false
  length_eq : rows.length = b.nodes.countP (·.kind.isResource) +
    b.diagnostics.countP Diagnostic.isDuplicate + b.diagnostics.countP Diagnostic.isParentCycle
  /-- One remark for each row of an id after the first. -/
  repeats : ∀ id, b.diagnostics.count (.duplicateEntity id) = rows.countP (·.id = id) - 1
  circles : ∀ id, .parentCycle id ∈ b.diagnostics ↔
    ∃ r, rows.find? (·.id = id) = some r ∧ IsCircular rows r
  circles_once : ∀ id, b.diagnostics.count (.parentCycle id) ≤ 1

/-- The tree of a batch accounts for every row once: the first row of an id is shown, unless the
parents lead from it onto a circle, and every row that is not shown is remarked. -/
theorem build_accounts_for_rows (s : Surroundings) (rows : List Resource) :
    s.Accounts rows (s.build rows) where
  shown := resources_build rows
  placed _ := mem_placedRows_iff
  placed_once := nodup_ids_placedRows rows
  folders _ := unlocked_of_mem_build
  length_eq := by
    have hplaced := (resources_build (s := s) rows).length_eq
    have hfirst := (placedRows_append_perm rows).length_eq
    have hall := length_splitRepeats [] rows
    rw [List.length_append] at hfirst
    rw [List.countP_eq_length_filter, ← hplaced, countP_isDuplicate, countP_isParentCycle,
      ← hall, ← firstRows, ← hfirst]
    omega
  repeats := count_duplicateEntity
  circles := parentCycle_mem_iff
  circles_once := count_parentCycle_le

end Surroundings

end FleetConsole.Tree
