import Mathlib
import FleetConsole.Inventory.Rows
import FleetConsole.Proofs.ReportStream

/-! Reports over an inventory in memory. What a reader gets does not depend on how many rows a page
holds or how many pieces the channel holds, and which rows there are, in which order, follows from
what the inventory stores. -/
namespace FleetConsole

/-- The rows of `stored`, arranged by a key. Rows of one key stay in the order in which they are
stored. -/
structure ArrangedBy {Row Key : Type} [DecidableEq Key] (le : Key → Key → Prop) (key : Row → Key)
    (stored rows : List Row) : Prop where
  perm : rows.Perm stored
  sorted : rows.Pairwise fun a b => le (key a) (key b)
  ties : ∀ k, rows.filter (key · = k) = stored.filter (key · = k)

section Sorting

variable {Row Key : Type} {before : Row → Row → Bool}

section Stable

variable (trans : ∀ a b c, before a b = true → before b c = true → before a c = true)
  (total : ∀ a b, (before a b || before b a) = true)

include trans total

theorem mergeSort_cons_eq_append (row : Row) (rows : List Row) :
    ∃ front back, (row :: rows).mergeSort before = front ++ row :: back ∧
      rows.mergeSort before = front ++ back ∧ (∀ r ∈ front, before row r = false) ∧
      ∀ r ∈ back, before row r = true := by
  obtain ⟨front, back, hcons, hrows, hfront⟩ := List.mergeSort_cons trans total row rows
  have hsorted := List.pairwise_mergeSort trans total (row :: rows)
  rw [hcons, List.pairwise_append, List.pairwise_cons] at hsorted
  exact ⟨front, back, hcons, hrows, fun r hr => by simpa using hfront r hr, hsorted.2.1.1⟩

/-- Sorting what a filter keeps is keeping it of what is sorted. -/
theorem mergeSort_filter (P : Row → Bool) (rows : List Row) :
    (rows.filter P).mergeSort before = (rows.mergeSort before).filter P := by
  induction rows with
  | nil => simp
  | cons row rows ih =>
    obtain ⟨front, back, hcons, hrows, hfront, hback⟩ :=
      mergeSort_cons_eq_append trans total row rows
    by_cases hP : P row = true
    · obtain ⟨front', back', hcons', hrows', hfront', hback'⟩ :=
        mergeSort_cons_eq_append trans total row (rows.filter P)
      have hparts : front.filter P ++ back.filter P = front' ++ back' := by
        rw [← hrows', ih, hrows, List.filter_append]
      -- The place of `row` among sorted rows is fixed by what it is compared with.
      have hplace {s t : List Row} (hs : ∀ r ∈ s, before row r = false)
          (ht : ∀ r ∈ t, before row r = true) : (s ++ t).filter (before row) = t := by
        rw [List.filter_append, List.filter_eq_self.mpr ht, List.filter_eq_nil_iff.mpr (by simpa),
          List.nil_append]
      have hback_eq : back.filter P = back' := by
        rw [← hplace hfront' hback', ← hparts,
          hplace (fun r hr => hfront r (List.mem_filter.mp hr).1)
            fun r hr => hback r (List.mem_filter.mp hr).1]
      have hfront_eq : front.filter P = front' := by
        rwa [hback_eq, List.append_left_inj] at hparts
      rw [List.filter_cons_of_pos hP, hcons', hcons, List.filter_append,
        List.filter_cons_of_pos hP, hfront_eq, hback_eq]
    · rw [List.filter_cons_of_neg hP, ih, hrows, hcons, List.filter_append, List.filter_append,
        List.filter_cons_of_neg hP]

/-- A stable sort leaves rows alone that need not move past one another. -/
theorem filter_mergeSort {P : Row → Bool}
    (hP : ∀ a b, P a = true → P b = true → before a b = true) (stored : List Row) :
    (stored.mergeSort before).filter P = stored.filter P := by
  rw [← mergeSort_filter trans total]
  refine List.mergeSort_of_pairwise (List.pairwise_of_forall_mem_list fun a ha b hb => ?_)
  exact hP a b (List.mem_filter.mp ha).2 (List.mem_filter.mp hb).2

end Stable

theorem arrangedBy_mergeSort [DecidableEq Key] {le : Key → Key → Prop} {key : Row → Key}
    (trans : ∀ j k l, le j k → le k l → le j l) (total : ∀ j k, le j k ∨ le k j)
    (hbefore : ∀ a b, before a b = true ↔ le (key a) (key b)) (stored : List Row) :
    ArrangedBy le key stored (stored.mergeSort before) := by
  have htrans : ∀ a b c, before a b = true → before b c = true → before a c = true := by
    intro a b c hab hbc
    exact (hbefore a c).mpr (trans _ _ _ ((hbefore a b).mp hab) ((hbefore b c).mp hbc))
  have htotal : ∀ a b, (before a b || before b a) = true := by
    intro a b
    rw [Bool.or_eq_true, hbefore, hbefore]
    exact total _ _
  refine ⟨List.mergeSort_perm stored before, ?_, fun k => ?_⟩
  · exact (List.pairwise_mergeSort htrans htotal stored).imp fun h => (hbefore _ _).mp h
  · refine filter_mergeSort htrans htotal (fun a b ha hb => ?_) stored
    have hsame : key a = key b := by
      rw [decide_eq_true_eq] at ha hb
      exact ha.trans hb.symm
    rw [hbefore, hsame]
    exact (total _ _).elim id id

end Sorting

namespace Inventory

open Report

section Rows

variable (inv : Inventory)

/-- Newest first. -/
abbrev NewestFirst {Row : Type} (time : Row → Instant) (stored rows : List Row) : Prop :=
  ArrangedBy (fun s t => t ≤ s) time stored rows

theorem newestFirst_arranged {Row : Type} (time : Row → Instant) (stored : List Row) :
    NewestFirst time stored (newestFirst time stored) := by
  refine arrangedBy_mergeSort (fun r s t hrs hst => ?_) (fun s t => ?_) (fun a b => ?_) stored
  · exact Int.le_trans hst hrs
  · exact Int.le_total t.nanos s.nanos
  · exact decide_eq_true_iff

theorem newestFirst_filter {Row : Type} (time : Row → Instant) (P : Row → Bool)
    (stored : List Row) :
    newestFirst time (stored.filter P) = (newestFirst time stored).filter P := by
  refine mergeSort_filter (fun a b c hab hbc => ?_) (fun a b => ?_) P stored
  · rw [decide_eq_true_eq] at hab hbc ⊢
    exact Int.le_trans hbc hab
  · rw [Bool.or_eq_true, decide_eq_true_eq, decide_eq_true_eq]
    exact Int.le_total _ _

/-- The names by which rows of details are ordered. -/
def detailNames (row : InventoryDetailRow) : String × String :=
  (row.type.typeName, row.resource.name)

def namesLe (a b : String × String) : Prop := a.1 < b.1 ∨ a.1 = b.1 ∧ a.2 ≤ b.2

theorem detailLe_arranged (stored : List InventoryDetailRow) :
    ArrangedBy namesLe detailNames stored (stored.mergeSort detailLe) := by
  have hlex (a b : String × String) : namesLe a b ↔ toLex a ≤ toLex b :=
    Prod.Lex.toLex_le_toLex.symm
  refine arrangedBy_mergeSort (fun j k l hjk hkl => ?_) (fun j k => ?_) (fun a b => ?_) stored
  · rw [hlex] at hjk hkl ⊢
    exact le_trans hjk hkl
  · rw [hlex, hlex]
    exact le_total _ _
  · simp [detailLe, namesLe, detailNames]

/-- What a row tells of the type of a resource. The catalog has the type, and the version is the one
that is stored for the resource. -/
def TypeOf (r : Resource) (shown : TypeRef) : Prop :=
  ∃ t ∈ inv.catalog.types, t.id = r.typeId ∧
    shown = ⟨t.id, t.name, t.plugin, t.category, inv.versions.get? r.id⟩

structure DetailOf (r : Resource) (row : InventoryDetailRow) : Prop where
  typeOf : inv.TypeOf r row.type
  resource_eq : row.resource = ⟨r.id, r.name, r.ancestry⟩
  description_eq : row.description = r.description
  availability_eq : row.availability = r.availability

structure ComplianceOf (r : Resource) (row : DriftComplianceRow) : Prop where
  typeOf : inv.TypeOf r row.type
  resource_eq : row.resource = ⟨r.id, r.name, r.ancestry⟩
  inCompliance_eq : inv.driftCompliance.get? r.id = some row.inCompliance

/-- Whether a resource is of a type in the catalog, with the type and version that are asked for. -/
abbrev Passes (f : TypeFilter) (r : Resource) : Prop :=
  (∃ t ∈ inv.catalog.types, t.id = r.typeId) ∧ (∀ id ∈ f.typeId, r.typeId = id) ∧
    ∀ version ∈ f.version, inv.versions.get? r.id = some version

/-- Whether there is an entry that says if a resource is in compliance. -/
abbrev HasCompliance (r : Resource) : Prop := r.id ∈ inv.driftCompliance.map Prod.fst

theorem typeOf_of_typeRef? {r : Resource} {shown : TypeRef} (h : inv.typeRef? r = some shown) :
    inv.TypeOf r shown := by
  obtain ⟨t, ht, rfl⟩ := Option.map_eq_some_iff.mp h
  exact ⟨t, List.mem_of_find?_eq_some ht, Catalog.id_of_type? ht, rfl⟩

theorem isSome_typeRef?_iff {r : Resource} :
    (inv.typeRef? r).isSome ↔ ∃ t ∈ inv.catalog.types, t.id = r.typeId := by
  rw [typeRef?, Option.isSome_map, Catalog.type?, List.find?_isSome]
  simp only [decide_eq_true_eq]

theorem any_typeRef?_iff {f : TypeFilter} {r : Resource} :
    (inv.typeRef? r).any f.accepts ↔ inv.Passes f r := by
  rw [Passes, ← isSome_typeRef?_iff]
  cases h : inv.typeRef? r with
  | none => simp
  | some shown =>
    obtain ⟨t, -, hid, rfl⟩ := inv.typeOf_of_typeRef? h
    simp only [TypeFilter.accepts, hid, Option.any_some, Bool.and_eq_true, Option.all_eq_true,
      decide_eq_true_eq, Option.isSome_some, true_and, Option.mem_def, eq_comm (a := r.typeId)]

/-- The rows made of some of a list, when it is known which these are and what is in their rows. -/
theorem forall₂_filter_filterMap {α β : Type} {f : α → Option β} {P : β → Bool} {Q : α → Bool}
    {R : α → β → Prop} (hQ : ∀ a, Q a ↔ (f a).any P) (hR : ∀ a b, f a = some b → R a b)
    (l : List α) :
    List.Forall₂ R (l.filter Q) ((l.filterMap f).filter P) := by
  induction l with
  | nil => exact .nil
  | cons a l ih =>
    have hkeep : Q a = (f a).any P := Bool.eq_iff_iff.mpr (hQ a)
    cases h : f a with
    | none => simpa [h, hkeep] using ih
    | some b =>
      by_cases hb : P b = true
      · simpa [h, hb, hkeep] using ⟨hR a b h, ih⟩
      · simpa [h, hb, hkeep] using ih

theorem detailRows_of_passing (f : TypeFilter) :
    List.Forall₂ inv.DetailOf (inv.resources.filter (inv.Passes f))
      ((inv.resources.filterMap inv.detailRow?).filter fun row => f.accepts row.type) := by
  refine forall₂_filter_filterMap (fun r => ?_) (fun r row hrow => ?_) inv.resources
  · rw [decide_eq_true_iff, ← any_typeRef?_iff, detailRow?, Option.any_map]
  · obtain ⟨shown, htype, rfl⟩ := Option.map_eq_some_iff.mp hrow
    exact ⟨inv.typeOf_of_typeRef? htype, rfl, rfl, rfl⟩

theorem complianceRows_of_passing (f : TypeFilter) :
    List.Forall₂ inv.ComplianceOf
      (inv.resources.filter fun r => inv.Passes f r ∧ inv.HasCompliance r)
      (inv.rows (.driftCompliance f)) := by
  refine forall₂_filter_filterMap (fun r => ?_) (fun r row hrow => ?_) inv.resources
  · rw [decide_eq_true_iff, ← any_typeRef?_iff, HasCompliance, ← Facts.isSome_get?_iff,
      complianceRow?]
    cases inv.driftCompliance.get? r.id <;> cases inv.typeRef? r <;> simp
  · obtain ⟨inCompliance, hfact, hrow⟩ := Option.bind_eq_some_iff.mp hrow
    obtain ⟨shown, htype, hrow⟩ := Option.bind_eq_some_iff.mp hrow
    cases hrow
    exact ⟨inv.typeOf_of_typeRef? htype, rfl, hfact⟩

end Rows

section Paging

variable (inv : Inventory) {σ : Type} (c : Criteria)

theorem reportSource_serves (size : Nat) :
    (inv.reportSource σ c).Serves size (inv.rows c) true (fun _ => none) :=
  ⟨fun _ _ => rfl⟩

/-- The pages of a report hold its rows, unless there are more than page numbers can count. -/
theorem exists_reads_rows {pageSize : Nat} (hsize : (inv.rows c).length < max pageSize 1 * 2 ^ 32)
    (s : σ) :
    ∃ pages after, pages.flatMap Page.items = inv.rows c ∧
      (inv.reportSource σ c).Reads (.first pageSize) s pages .complete after := by
  have hpos : 0 < max pageSize 1 := Nat.lt_of_lt_of_le Nat.zero_lt_one (Nat.le_max_right _ _)
  have hroom : pagesNeeded true (inv.rows c).length (max pageSize 1) ≤
      PageControl.lastNumber + 1 := by
    refine (pagesNeeded_le_iff hpos).mpr ?_
    rw [if_pos rfl, PageControl.lastNumber]
    omega
  obtain ⟨pages, after, -, hrows, hreads⟩ :=
    (inv.reportSource_serves c (max pageSize 1)).exists_reads_complete hpos hroom
      (fun _ _ => rfl) s
  exact ⟨pages, after, hrows, hreads⟩

theorem rows_of_reads {pageSize : Nat} (hsize : (inv.rows c).length < max pageSize 1 * 2 ^ 32)
    {s after : σ} {pages : List (Page c.Row)} {ending : Ending}
    (h : (inv.reportSource σ c).Reads (.first pageSize) s pages ending after) :
    pages.flatMap Page.items = inv.rows c ∧ ending = .complete := by
  obtain ⟨pages', after', hrows, hreads⟩ := inv.exists_reads_rows c hsize s
  obtain ⟨hsame, hending⟩ := Fetch.Reads.unique _ h hreads
  exact ⟨hsame.trans hrows, hending⟩

/-- A report over the inventory succeeds, and what it writes does not depend on the options. -/
theorem startReport_eq {options : StreamOptions}
    (hsize : (inv.rows c).length < max options.pageSize 1 * 2 ^ 32) (format : ReportFormat)
    (base : LinkBase) (s : σ) :
    (startReport (inv.reportSource σ) c format base options s).1 =
      .ok (.of ((Writer.mk c.kind format c.layout base).chunks (inv.rows c) .complete)
        .complete) := by
  obtain ⟨pages, after, hrows, hreads⟩ := inv.exists_reads_rows c hsize s
  have hpages : pages ≠ [] := by
    intro hnil
    rw [hnil] at hreads
    cases hreads
  obtain ⟨page, between, hfetch⟩ := hreads.exists_ok hpages
  rw [startReport, Writer.report_of_ok _ hfetch, Fetch.rowsAt_of_reads _ hreads, hrows,
    Writer.output_eq]

theorem items_rows {pageSize : Nat} (hsize : (inv.rows c).length < max pageSize 1 * 2 ^ 32)
    (s : σ) : ((inv.reportSource σ c).rows pageSize s).items = (inv.rows c).map .ok := by
  obtain ⟨pages, after, hrows, hreads⟩ := inv.exists_reads_rows c hsize s
  rw [(Fetch.rows_of_reads hreads).1, hrows]
  simp [Run.items, Ending.fault?]

end Paging

/-- The body of a report over the inventory is the same for all page sizes and channel capacities,
however writer and reader take turns. Alerts, operations and drift are the stored rows that the
filter accepts, and the history of configurations all of them, newest first; details are one row for
each resource that passes, by type and name; compliance is one row for each that passes, as
stored. -/
theorem report_independent_of_paging (inv : Inventory) (σ : Type) :
    (∀ (c : Criteria) (format : ReportFormat) (base : LinkBase) (o₁ o₂ : StreamOptions) (s₁ s₂ : σ),
      (inv.rows c).length < max o₁.pageSize 1 * 2 ^ 32 →
      (inv.rows c).length < max o₂.pageSize 1 * 2 ^ 32 →
      ∃ output body,
        (startReport (inv.reportSource σ) c format base o₁ s₁).1 = .ok output ∧
        (startReport (inv.reportSource σ) c format base o₂ s₂).1 = .ok output ∧
        output.collect? = some (.ok body) ∧
        output.chunks = (Writer.mk c.kind format c.layout base).chunks (inv.rows c) .complete ∧
        (∀ capacity got, (Channel.ofCapacity capacity).Passes output.chunks got ↔
          got = output.chunks) ∧
        ((inv.reportSource σ c).rows o₁.pageSize s₁).items = (inv.rows c).map .ok) ∧
    (∀ f, NewestFirst AlertRow.createdAt (inv.alerts.filter f.accepts)
      (inv.rows (.recentAlerts f))) ∧
    (∀ f, NewestFirst OperationRow.createdAt (inv.operations.filter f.accepts)
      (inv.rows (.recentOperations f))) ∧
    (∀ f, NewestFirst DriftRow.createdAt (inv.drift.filter f.accepts)
      (inv.rows (.recentDrift f))) ∧
    NewestFirst ConfigurationUpdateRow.submittedAt inv.configurationUpdates
      (inv.rows .configurationHistory) ∧
    (∀ f, ∃ listed,
      List.Forall₂ inv.DetailOf (inv.resources.filter (inv.Passes f)) listed ∧
      ArrangedBy namesLe detailNames listed (inv.rows (.inventoryDetails f))) ∧
    ∀ f, List.Forall₂ inv.ComplianceOf
      (inv.resources.filter fun r => inv.Passes f r ∧ inv.HasCompliance r)
      (inv.rows (.driftCompliance f)) := by
  refine ⟨fun c format base o₁ o₂ s₁ s₂ h₁ h₂ => ?_, fun f => newestFirst_arranged _ _,
    fun f => newestFirst_arranged _ _, fun f => newestFirst_arranged _ _,
    newestFirst_arranged _ _, fun f => ?_, inv.complianceRows_of_passing⟩
  · refine ⟨_, _, inv.startReport_eq c h₁ format base s₁, inv.startReport_eq c h₂ format base s₂,
      Output.collect?_of_complete _, Output.chunks_of .., fun capacity got => ?_,
      inv.items_rows c h₁ s₁⟩
    rw [Channel.passes_iff]
    rfl
  · exact ⟨_, inv.detailRows_of_passing f, detailLe_arranged _⟩

namespace ThreeAlerts

def alert (id : Int32) (createdAt : Instant) : AlertRow :=
  ⟨id, createdAt, "Server down", [.availability .goesDown], .high, none, ⟨⟨7⟩, "node1", none⟩,
    .resource⟩

def node : Resource := ⟨⟨7⟩, "node1", none, none, ⟨1⟩, .up, none⟩

def database : Resource :=
  ⟨⟨8⟩, "db", some "main", some ⟨7⟩, ⟨2⟩, .down, some "1_:_7_:_node1"⟩

/-- A resource of a type that the catalog does not have. -/
def stray : Resource := ⟨⟨9⟩, "cache", none, some ⟨7⟩, ⟨5⟩, .up, none⟩

def inventory : Inventory :=
  { Inventory.empty with
    catalog := ⟨[⟨⟨1⟩, "Linux", "Platforms", .platform, none, false, none, []⟩,
      ⟨⟨2⟩, "Datasource", "Tomcat", .service, none, false, none, []⟩], []⟩
    resources := [stray, node, database]
    versions := [(⟨8⟩, "9.1")]
    driftCompliance := [(⟨7⟩, true), (⟨9⟩, false)]
    alerts := [alert 1 .epoch, alert 2 (.clampNanos 1), alert 3 .epoch] }

def criteria : Criteria := .recentAlerts ⟨[], .everything⟩

def everyType : TypeFilter := ⟨none, none⟩

def nodeRow : InventoryDetailRow :=
  ⟨⟨⟨1⟩, "Linux", "Platforms", .platform, none⟩, ⟨⟨7⟩, "node1", none⟩, none, .up⟩

def databaseRow : InventoryDetailRow :=
  ⟨⟨⟨2⟩, "Datasource", "Tomcat", .service, some "9.1"⟩, ⟨⟨8⟩, "db", some "1_:_7_:_node1"⟩,
    some "main", .down⟩

def complianceRows : List DriftComplianceRow :=
  [⟨⟨⟨1⟩, "Linux", "Platforms", .platform, none⟩, ⟨⟨7⟩, "node1", none⟩, true⟩]

/-- The newest alert, by a nanosecond, comes first and the two of one time stay in their order,
whether a page holds one row or all of them. The resource of no known type is left out of the
details and, though it has an entry, of the compliance. -/
theorem report_independent_of_paging_three_alerts :
    (inventory.rows criteria).length < max 1 1 * 2 ^ 32 ∧
      (inventory.rows criteria).length < max 200 1 * 2 ^ 32 ∧
      (∃ output body,
        (startReport (inventory.reportSource Unit) criteria .csv (.ofUrl "") ⟨1, 1⟩ ()).1 =
          .ok output ∧
        (startReport (inventory.reportSource Unit) criteria .csv (.ofUrl "") ⟨200, 64⟩ ()).1 =
          .ok output ∧
        output.collect? = some (.ok body)) ∧
      ((inventory.reportSource Unit criteria).rows 1 ()).items =
        [alert 2 (.clampNanos 1), alert 1 .epoch, alert 3 .epoch].map .ok ∧
      ((inventory.reportSource Unit (.inventoryDetails everyType)).rows 1 ()).items =
        [databaseRow, nodeRow].map .ok ∧
      ((inventory.reportSource Unit (.driftCompliance everyType)).rows 1 ()).items =
        complianceRows.map .ok ∧
      List.Forall₂ inventory.ComplianceOf [node] complianceRows := by
  have hrows : inventory.rows criteria =
      [alert 2 (.clampNanos 1), alert 1 .epoch, alert 3 .epoch] := by
    cbv
  have hdetails : inventory.rows (.inventoryDetails everyType) = [databaseRow, nodeRow] := by
    have hlisted : ((inventory.resources.filterMap inventory.detailRow?).filter fun row =>
        everyType.accepts row.type) = [nodeRow, databaseRow] := by
      decide
    have hle : detailLe nodeRow databaseRow = false := by decide
    rw [rows, hlisted]
    simp [List.mergeSort, hle]
  have hcompliance : inventory.rows (.driftCompliance everyType) = complianceRows := by
    cbv
  have hone : (inventory.rows criteria).length < max 1 1 * 2 ^ 32 := by
    rw [hrows]
    decide
  have hmany : (inventory.rows criteria).length < max 200 1 * 2 ^ 32 := by
    rw [hrows]
    decide
  obtain ⟨hsame, -, -, -, -, -, hcompliant⟩ := report_independent_of_paging inventory Unit
  obtain ⟨output, body, h₁, h₂, hbody, -, -, hitems⟩ :=
    hsame criteria .csv (.ofUrl "") ⟨1, 1⟩ ⟨200, 64⟩ () () hone hmany
  have hall (c : Criteria) (hc : (inventory.rows c).length < max 1 1 * 2 ^ 32) :
      ((inventory.reportSource Unit c).rows 1 ()).items = (inventory.rows c).map .ok := by
    obtain ⟨-, -, -, -, -, -, -, hitems⟩ :=
      hsame c .csv (.ofUrl "") ⟨1, 1⟩ ⟨1, 1⟩ () () hc hc
    exact hitems
  refine ⟨hone, hmany, ⟨output, body, h₁, h₂, hbody⟩, ?_, ?_, ?_, ?_⟩
  · rw [hitems, hrows]
    rfl
  · rw [hall _ (by rw [hdetails]; decide), hdetails]
  · rw [hall _ (by rw [hcompliance]; decide), hcompliance]
  · exact hcompliance ▸ hcompliant everyType

end ThreeAlerts

end Inventory

end FleetConsole
