import FleetConsole.Proofs.ClusterArrangement
import FleetConsole.Proofs.InventoryReports

/-! Counts of resources. The summary has one row for each name of a type, up to case, together with a
version; so it counts by type and version just if no two types in use share a name and a version. -/
namespace FleetConsole

namespace Inventory

open Report

variable {inv : Inventory} {K : Type} [DecidableEq K]

/-- The resources of known types that have a key. -/
def resourcesOf (inv : Inventory) (key : TypeRef → K) (k : K) : List Resource :=
  inv.resources.filter fun r => (inv.typeRef? r).any (key · = k)

/-- One row for each key that a resource of a known type has, with the number of these resources and
the type of the first. -/
structure Counts (inv : Inventory) (key : TypeRef → K) (rows : List TypeCountRow) : Prop where
  apart : (rows.map fun row => key row.type).Nodup
  mem_iff : ∀ k, (k ∈ rows.map fun row => key row.type) ↔ inv.resourcesOf key k ≠ []
  count : ∀ row ∈ rows, row.count = (inv.resourcesOf key (key row.type)).length
  first : ∀ row ∈ rows,
    (inv.resourcesOf key (key row.type)).head?.bind inv.typeRef? = some row.type

def idAndVersion (t : TypeRef) : TypeId × Option String := (t.typeId, t.version)

theorem mem_resourcesOf_iff {key : TypeRef → K} {k : K} {r : Resource} :
    r ∈ inv.resourcesOf key k ↔
      r ∈ inv.resources ∧ ∃ t, inv.typeRef? r = some t ∧ key t = k := by
  simp [resourcesOf, Option.any_eq_true]

theorem typeRef?_eq_some_iff {r : Resource} {t : TypeRef} :
    inv.typeRef? r = some t ↔
      ∃ type, inv.catalog.type? r.typeId = some type ∧
        t = ⟨r.typeId, type.name, type.plugin, type.category, inv.versions.get? r.id⟩ := by
  have hid {type : ResourceType} (h : inv.catalog.type? r.typeId = some type) :
      type.id = r.typeId := by
    simpa using List.find?_some h
  rw [typeRef?, Option.map_eq_some_iff]
  refine exists_congr fun type => and_congr_right fun htype => ?_
  rw [hid htype, eq_comm]

/-- What it is to count by the id of the type and the version. -/
theorem mem_resourcesOf_idAndVersion_iff {id : TypeId} {version : Option String} {r : Resource} :
    r ∈ inv.resourcesOf idAndVersion (id, version) ↔
      r ∈ inv.resources ∧ r.typeId = id ∧ inv.versions.get? r.id = version ∧
        ∃ type, inv.catalog.type? id = some type := by
  simp only [mem_resourcesOf_iff, typeRef?_eq_some_iff]
  refine and_congr_right fun _ => ⟨?_, ?_⟩
  · rintro ⟨t, ⟨type, htype, rfl⟩, hkey⟩
    obtain ⟨rfl, rfl⟩ := Prod.mk.inj hkey
    exact ⟨rfl, rfl, type, htype⟩
  · rintro ⟨rfl, rfl, type, htype⟩
    exact ⟨_, ⟨type, htype, rfl⟩, rfl⟩

/-- What a row shows of a type is settled by the id of the type and the version. -/
theorem eq_of_idAndVersion_eq {r r' : Resource} {t t' : TypeRef} (h : inv.typeRef? r = some t)
    (h' : inv.typeRef? r' = some t') (hsame : idAndVersion t = idAndVersion t') : t = t' := by
  obtain ⟨type, htype, rfl⟩ := typeRef?_eq_some_iff.mp h
  obtain ⟨type', htype', rfl⟩ := typeRef?_eq_some_iff.mp h'
  obtain ⟨hid, hversion⟩ : r.typeId = r'.typeId ∧ inv.versions.get? r.id = inv.versions.get? r'.id :=
    Prod.mk.inj hsame
  rw [hid, htype'] at htype
  obtain rfl := Option.some.inj htype
  rw [hid, hversion]

/-- What the resources with a key show of their types, in their order. -/
theorem typeRefs_of_resourcesOf (inv : Inventory) (key : TypeRef → K) (k : K) :
    List.Forall₂ (fun r t => inv.typeRef? r = some t) (inv.resourcesOf key k)
      ((inv.resources.filterMap inv.typeRef?).filter (key · = k)) :=
  forall₂_filter_filterMap (fun _ => Iff.rfl) (fun _ _ => id) inv.resources

theorem length_resourcesOf (key : TypeRef → K) (k : K) :
    (inv.resourcesOf key k).length =
      ((inv.resources.filterMap inv.typeRef?).filter (key · = k)).length :=
  (inv.typeRefs_of_resourcesOf key k).length_eq

theorem head?_resourcesOf (key : TypeRef → K) (k : K) :
    (inv.resourcesOf key k).head?.bind inv.typeRef? =
      ((inv.resources.filterMap inv.typeRef?).filter (key · = k)).head? := by
  have hshown := inv.typeRefs_of_resourcesOf key k
  generalize inv.resourcesOf key k = holders at hshown ⊢
  generalize (inv.resources.filterMap inv.typeRef?).filter (key · = k) = shown at hshown ⊢
  cases hshown with
  | nil => rfl
  | cons hhead _ => exact hhead

section Rows

/-- The key by which rows are made, as one reads it off a row. -/
abbrev rowKey (row : TypeCountRow) : CountKey := .ofTypeRef row.type

theorem mem_typeCounts_iff {row : TypeCountRow} :
    row ∈ inv.typeCounts ↔
      (inv.resourcesOf CountKey.ofTypeRef (rowKey row)).head?.bind inv.typeRef? = some row.type ∧
        row.count = (inv.resourcesOf CountKey.ofTypeRef (rowKey row)).length := by
  simp only [typeCounts, List.mem_filterMap, List.mem_mergeSort, Option.map_eq_some_iff,
    head?_resourcesOf, length_resourcesOf]
  constructor
  · rintro ⟨g, hg, t, ht, rfl⟩
    have hkey := Tree.map_head?_of_mem_groupByKey CountKey.ofTypeRef hg
    rw [ht, Option.map_some, Option.some_inj] at hkey
    rw [rowKey, hkey, ← Tree.members_of_mem_groupByKey CountKey.ofTypeRef hg]
    exact ⟨ht, rfl⟩
  · rintro ⟨hhead, hcount⟩
    have hmem := (List.mem_filter.mp (List.mem_of_head? hhead)).1
    obtain ⟨g, hg, hkey⟩ := Tree.exists_group_of_mem CountKey.ofTypeRef hmem
    have hmembers := Tree.members_of_mem_groupByKey CountKey.ofTypeRef hg
    rw [hkey] at hmembers
    refine ⟨g, hg, row.type, ?_, ?_⟩
    · rw [hmembers]
      exact hhead
    · rw [hmembers, ← hcount]

theorem nodup_rowKeys : (inv.typeCounts.map rowKey).Nodup := by
  have hkeys : ∀ g ∈ Tree.groupByKey CountKey.ofTypeRef (inv.resources.filterMap inv.typeRef?),
      (g.2.head?.map fun t => (⟨t, g.2.length⟩ : TypeCountRow)).map rowKey = some g.1 := by
    intro g hg
    rw [Option.map_map]
    exact Tree.map_head?_of_mem_groupByKey CountKey.ofTypeRef hg
  refine (((List.mergeSort_perm _ _).filterMap _).map rowKey).nodup_iff.mpr ?_
  rw [List.map_filterMap, List.filterMap_congr hkeys, List.filterMap_eq_map']
  exact Tree.nodup_keys_groupByKey CountKey.ofTypeRef _

/-- The rows of the summary count by the key by which they are made. -/
theorem typeCounts_counts (inv : Inventory) : inv.Counts CountKey.ofTypeRef inv.typeCounts where
  apart := nodup_rowKeys
  mem_iff k := by
    rw [List.mem_map]
    constructor
    · rintro ⟨row, hrow, rfl⟩ hnone
      have hhead := (mem_typeCounts_iff.mp hrow).1
      rw [hnone] at hhead
      cases hhead
    · intro hsome
      obtain ⟨r, rest, hr⟩ := List.exists_cons_of_ne_nil hsome
      obtain ⟨-, t, ht, rfl⟩ := mem_resourcesOf_iff.mp (hr ▸ List.mem_cons_self)
      refine ⟨⟨t, (inv.resourcesOf CountKey.ofTypeRef (.ofTypeRef t)).length⟩,
        mem_typeCounts_iff.mpr ⟨?_, rfl⟩, rfl⟩
      rw [hr]
      exact ht
  count row hrow := (mem_typeCounts_iff.mp hrow).2
  first row hrow := (mem_typeCounts_iff.mp hrow).1

end Rows

namespace Counts

variable {key : TypeRef → K} {rows : List TypeCountRow}

theorem exists_resource (h : inv.Counts key rows) {row : TypeCountRow} (hrow : row ∈ rows) :
    ∃ r ∈ inv.resources, inv.typeRef? r = some row.type := by
  obtain ⟨r, hr, ht⟩ := Option.bind_eq_some_iff.mp (h.first row hrow)
  exact ⟨r, (mem_resourcesOf_iff.mp (List.mem_of_head? hr)).1, ht⟩

theorem eq_of_key_eq (h : inv.Counts key rows) {row row' : TypeCountRow} (hrow : row ∈ rows)
    (hrow' : row' ∈ rows) (hkey : key row.type = key row'.type) : row = row' :=
  List.inj_on_of_nodup_map h.apart hrow hrow' hkey

theorem exists_row (h : inv.Counts key rows) {r : Resource} (hr : r ∈ inv.resources) {t : TypeRef}
    (ht : inv.typeRef? r = some t) : ∃ row ∈ rows, key row.type = key t :=
  List.mem_map.mp ((h.mem_iff (key t)).mpr
    (List.ne_nil_of_mem (mem_resourcesOf_iff.mpr ⟨hr, t, ht, rfl⟩)))

/-- Rows that count by one key count by every other that tells apart the same types in use. -/
theorem congr {K' : Type} [DecidableEq K'] {key' : TypeRef → K'} (h : inv.Counts key rows)
    (hsame : ∀ r ∈ inv.resources, ∀ r' ∈ inv.resources, ∀ t t', inv.typeRef? r = some t →
      inv.typeRef? r' = some t' → (key t = key t' ↔ key' t = key' t')) :
    inv.Counts key' rows := by
  have hresources : ∀ row ∈ rows,
      inv.resourcesOf key' (key' row.type) = inv.resourcesOf key (key row.type) := by
    intro row hrow
    obtain ⟨r, hr, ht⟩ := h.exists_resource hrow
    refine List.filter_congr fun r' hr' => ?_
    cases ht' : inv.typeRef? r' with
    | none => rfl
    | some t' => exact decide_eq_decide.mpr (hsame r' hr' r hr t' row.type ht' ht).symm
  refine ⟨h.apart.of_map.map_on fun row hrow row' hrow' hkey => ?_, fun k => ⟨fun hk => ?_,
    fun hk => ?_⟩, fun row hrow => ?_, fun row hrow => ?_⟩
  · obtain ⟨r, hr, ht⟩ := h.exists_resource hrow
    obtain ⟨r', hr', ht'⟩ := h.exists_resource hrow'
    exact h.eq_of_key_eq hrow hrow' ((hsame r hr r' hr' _ _ ht ht').mpr hkey)
  · obtain ⟨row, hrow, rfl⟩ := List.mem_map.mp hk
    rw [hresources row hrow]
    exact (h.mem_iff _).mp (List.mem_map_of_mem hrow)
  · obtain ⟨r, hmem⟩ := List.exists_mem_of_ne_nil _ hk
    obtain ⟨hr, t, ht, rfl⟩ := mem_resourcesOf_iff.mp hmem
    obtain ⟨row, hrow, hkey⟩ := h.exists_row hr ht
    obtain ⟨r', hr', ht'⟩ := h.exists_resource hrow
    exact List.mem_map.mpr ⟨row, hrow, (hsame r' hr' r hr _ t ht' ht).mp hkey⟩
  · rw [hresources row hrow]
    exact h.count row hrow
  · rw [hresources row hrow]
    exact h.first row hrow

end Counts

/-- Resources of different types never share a name of the type, up to case, and a version. -/
def NamesTellTypes (inv : Inventory) : Prop :=
  ∀ r ∈ inv.resources, ∀ r' ∈ inv.resources, ∀ t t', inv.typeRef? r = some t →
    inv.typeRef? r' = some t' → CountKey.ofTypeRef t = .ofTypeRef t' → t.typeId = t'.typeId

theorem counts_idAndVersion_iff (inv : Inventory) :
    inv.Counts idAndVersion inv.typeCounts ↔ inv.NamesTellTypes := by
  have hcounts := inv.typeCounts_counts
  constructor
  · intro h r hr r' hr' t t' ht ht' hkey
    obtain ⟨row, hrow, hsame⟩ := h.exists_row hr ht
    obtain ⟨row', hrow', hsame'⟩ := h.exists_row hr' ht'
    obtain ⟨q, -, hq⟩ := hcounts.exists_resource hrow
    obtain ⟨q', -, hq'⟩ := hcounts.exists_resource hrow'
    obtain rfl := eq_of_idAndVersion_eq hq ht hsame
    obtain rfl := eq_of_idAndVersion_eq hq' ht' hsame'
    rw [hcounts.eq_of_key_eq hrow hrow' hkey]
  · intro h
    refine hcounts.congr fun r hr r' hr' t t' ht ht' => ⟨fun hkey => ?_, fun hsame => ?_⟩
    · have hversion : t.version = t'.version := congrArg CountKey.version hkey
      exact Prod.ext (h r hr r' hr' t t' ht ht' hkey) hversion
    · rw [eq_of_idAndVersion_eq ht ht' hsame]

/-- The summary, read over all its pages, counts the resources by the name of the type, up to case,
and the version. That is to count them by type and version just if no two types in use share a name
and a version. -/
theorem summary_counts_by_name (inv : Inventory) {pageSize : Nat}
    (hsize : (inv.rows .inventorySummary).length < max pageSize 1 * 2 ^ 32) {σ : Type} (s : σ) :
    ∃ rows, ((inv.reportSource σ .inventorySummary).rows pageSize s).items = rows.map .ok ∧
      inv.Counts CountKey.ofTypeRef rows ∧
      (inv.Counts idAndVersion rows ↔ inv.NamesTellTypes) :=
  ⟨inv.typeCounts, inv.items_rows .inventorySummary hsize s, inv.typeCounts_counts,
    inv.counts_idAndVersion_iff⟩

namespace TwoDatasources

def datasource (id : TypeId) (plugin : String) : ResourceType :=
  ⟨id, "Datasource", plugin, .service, none, false, none, []⟩

def resource (id : ResourceId) (name : String) (type : TypeId) : Resource :=
  ⟨id, name, none, none, type, .unknown, none⟩

/-- One resource of each of two types of one name. -/
def inventory : Inventory :=
  { Inventory.empty with
    catalog := ⟨[datasource ⟨1⟩ "JBossAS", datasource ⟨2⟩ "Tomcat"], []⟩
    resources := [resource ⟨10⟩ "first" ⟨1⟩, resource ⟨20⟩ "second" ⟨2⟩] }

theorem rows_eq : inventory.rows .inventorySummary =
    [⟨⟨⟨1⟩, "Datasource", "JBossAS", .service, none⟩, 2⟩] := by
  decide_cbv

theorem not_namesTellTypes : ¬inventory.NamesTellTypes := by
  intro h
  have hid := h (resource ⟨10⟩ "first" ⟨1⟩) (by simp [inventory])
    (resource ⟨20⟩ "second" ⟨2⟩) (by simp [inventory]) _ _ rfl rfl rfl
  cases hid

theorem summary_counts_by_name_two_datasources :
    (inventory.rows .inventorySummary).length < max 200 1 * 2 ^ 32 ∧
      ∃ rows, ((inventory.reportSource Unit .inventorySummary).rows 200 ()).items = rows.map .ok ∧
        inventory.Counts CountKey.ofTypeRef rows ∧ ¬inventory.Counts idAndVersion rows := by
  have hsize : (inventory.rows .inventorySummary).length < max 200 1 * 2 ^ 32 := by
    rw [rows_eq]
    decide
  obtain ⟨rows, hitems, hcounts, hiff⟩ := summary_counts_by_name inventory hsize ()
  exact ⟨hsize, rows, hitems, hcounts, fun h => not_namesTellTypes (hiff.mp h)⟩

/-- The types have one row together, with both resources. -/
theorem types_share_row :
    ¬inventory.Counts idAndVersion (inventory.rows .inventorySummary) := by
  intro h
  have hcount := h.count ⟨⟨⟨1⟩, "Datasource", "JBossAS", .service, none⟩, 2⟩ (by simp [rows_eq])
  revert hcount
  decide_cbv

end TwoDatasources

end Inventory

end FleetConsole
