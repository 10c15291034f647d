import FleetConsole.Proofs.InventoryReports
import FleetConsole.Proofs.Separators

/-! Filters that are lists of names: the priorities of alerts, the statuses of operations and the
categories of drift. Such a list fails as a whole over one name that is not known. Otherwise it
stands for the set of what it names, save that a list without a name stands for everything. -/
namespace FleetConsole

namespace Text

@[simp] theorem trim_trim (s : String) : trim (trim s) = trim s := by
  have hself : trimChars (trimChars s.toList) = trimChars s.toList :=
    trimChars_eq_self (fun _ => isBlank_of_head?_trimChars) fun _ => isBlank_of_getLast?_trimChars
  rw [trim, toList_trim, hself, ← trim]

theorem trim_eq_empty_iff {s : String} : trim s = "" ↔ isBlankText s = true := by
  rw [← String.toList_inj, toList_trim, String.toList_empty, isBlankText, List.all_eq_true,
    trimChars, dropTrailing, List.reverse_eq_nil_iff, List.dropWhile_eq_nil_iff]
  simp only [List.mem_reverse]
  refine ⟨fun h => ?_, fun h c hc => h c ((List.dropWhile_sublist _).subset hc)⟩
  rw [← List.dropWhile_eq_nil_iff]
  by_contra hne
  have hfirst := List.head_mem hne
  have hnot : isBlank (List.head _ hne) = false :=
    of_mem_head?_dropWhile (List.head?_eq_some_head hne)
  simp [h _ hfirst] at hnot

end Text

namespace Report

/-- The pieces of a comma-separated text that are not blank, as they stand there. -/
def filledPieces (raw : String) : List String :=
  (Text.fieldsOn ',' raw).filter fun piece => !Text.isBlankText piece

theorem listPieces_eq (raw : String) : listPieces raw = (filledPieces raw).map Text.trim := by
  rw [listPieces, filledPieces, List.filter_map]
  congr 2
  funext piece
  rw [Function.comp_apply, Bool.eq_iff_iff, decide_eq_true_eq, ne_eq, Text.trim_eq_empty_iff]
  simp

/-- The same pieces, but for their order, for how often each stands there, for the blanks around
them and for pieces of nothing but blanks. -/
def SamePieces (raw other : String) : Prop :=
  ∀ s, s ∈ (filledPieces raw).map Text.trim ↔ s ∈ (filledPieces other).map Text.trim

namespace SamePieces

variable {raw other : String}

theorem exists_iff (h : SamePieces raw other) {P : String → Prop}
    (hP : ∀ piece, P (Text.trim piece) ↔ P piece) :
    (∃ piece ∈ filledPieces raw, P piece) ↔ ∃ piece ∈ filledPieces other, P piece := by
  have htrimmed (text : String) : (∃ piece ∈ filledPieces text, P piece) ↔
      ∃ s ∈ (filledPieces text).map Text.trim, P s := by
    simp [hP]
  rw [htrimmed, htrimmed]
  simp only [h _]

theorem eq_nil_iff (h : SamePieces raw other) :
    filledPieces raw = [] ↔ filledPieces other = [] := by
  have hfilled (text : String) : filledPieces text = [] ↔ ¬∃ piece ∈ filledPieces text, True := by
    simp [List.eq_nil_iff_forall_not_mem]
  rw [hfilled, hfilled, h.exists_iff fun _ => Iff.rfl]

end SamePieces

/-- A list is read as a whole, or fails over the first piece of it that is not. -/
theorem mapM_readPiece {α : Type} (read : String → Option α) (summary : String)
    (pieces : List String) :
    pieces.mapM (readPiece read summary) =
      match pieces.find? fun piece => (read piece).isNone with
      | some piece => .error (.invalid summary ("unrecognized filter value " ++ piece))
      | none => .ok (pieces.filterMap read) := by
  induction pieces with
  | nil => rfl
  | cons piece pieces ih =>
    rw [List.mapM_cons]
    cases hread : read piece with
    | none => simp [readPiece, hread, bind, Except.bind]
    | some a =>
      have hpiece : readPiece read summary piece = .ok a := by rw [readPiece, hread]
      rw [hpiece, ih, List.find?_cons_of_neg (by simp [hread]), List.filterMap_cons_some hread]
      cases pieces.find? fun piece => (read piece).isNone <;> rfl

theorem AlertPriority.ofName?_eq_some_iff {s : String} {v : AlertPriority} :
    ofName? s = some v ↔ s = v.name := by
  refine ⟨fun h => ?_, fun h => h ▸ ofName?_name v⟩
  unfold ofName? at h
  split at h <;> cases h <;> rfl

/-- What an operation's status is called in a filter. -/
def OperationStatus.names : OperationStatus → List String
  | .inProgress => ["INPROGRESS", "IN_PROGRESS"]
  | status => [status.name]

theorem OperationStatus.ofName?_eq_some_iff {s : String} {v : OperationStatus} :
    ofName? s = some v ↔ s ∈ v.names := by
  refine ⟨fun h => ?_, fun h => ?_⟩
  · unfold ofName? at h
    split at h <;> cases h <;> simp [names, name]
  · cases v <;> simp only [names, name, List.mem_cons, List.not_mem_nil, or_false] at h
    · rcases h with rfl | rfl <;> rfl
    all_goals rw [h]; rfl

theorem DriftCategory.ofName?_eq_some_iff {s : String} {v : DriftCategory} :
    ofName? s = some v ↔ s = v.name := by
  refine ⟨fun h => ?_, fun h => ?_⟩
  · unfold ofName? at h
    split at h <;> cases h <;> rfl
  · cases v <;> rw [h] <;> rfl

/-- The parameters of reports that are lists of names. -/
inductive NameFilter
  | alertPriority | operationStatus | driftCategory

namespace NameFilter

/-- What a name stands for. -/
abbrev Value : NameFilter → Type
  | .alertPriority => AlertPriority
  | .operationStatus => OperationStatus
  | .driftCategory => DriftCategory

abbrev Row : NameFilter → Type
  | .alertPriority => AlertRow
  | .operationStatus => OperationRow
  | .driftCategory => DriftRow

abbrev Filter : NameFilter → Type
  | .alertPriority => AlertFilter
  | .operationStatus => OperationFilter
  | .driftCategory => DriftFilter

def value : (p : NameFilter) → p.Row → p.Value
  | .alertPriority => AlertRow.priority
  | .operationStatus => OperationRow.status
  | .driftCategory => DriftRow.category

def createdAt : (p : NameFilter) → p.Row → Instant
  | .alertPriority => AlertRow.createdAt
  | .operationStatus => OperationRow.createdAt
  | .driftCategory => DriftRow.createdAt

/-- The names of a value, in upper case. -/
def names : (p : NameFilter) → p.Value → List String
  | .alertPriority => fun priority => [priority.name]
  | .operationStatus => OperationStatus.names
  | .driftCategory => fun category => [category.name]

/-- A piece names a value whatever the case of its letters and the blanks around it. -/
def Names (p : NameFilter) (piece : String) (v : p.Value) : Prop :=
  Text.asciiUpper (Text.trim piece) ∈ p.names v

instance (p : NameFilter) (piece : String) (v : p.Value) : Decidable (p.Names piece v) :=
  inferInstanceAs (Decidable (_ ∈ _))

def Known (p : NameFilter) (piece : String) : Prop := ∃ v, p.Names piece v

/-- The criteria of a request in which no other parameter is given. -/
def read (p : NameFilter) (raw : String) (now : Instant) : Except Fault p.Filter :=
  match p with
  | .alertPriority => AlertFilter.read (some raw) none none now
  | .operationStatus => OperationFilter.read (some raw) none none now
  | .driftCategory => DriftFilter.read ⟨some raw, none, none, none, none, none⟩ now

def accepts : (p : NameFilter) → p.Filter → p.Row → Bool
  | .alertPriority => AlertFilter.accepts
  | .operationStatus => OperationFilter.accepts
  | .driftCategory => DriftFilter.accepts

/-- The rows of the report. -/
def rows (inv : Inventory) : (p : NameFilter) → p.Filter → List p.Row
  | .alertPriority => fun f => inv.rows (.recentAlerts f)
  | .operationStatus => fun f => inv.rows (.recentOperations f)
  | .driftCategory => fun f => inv.rows (.recentDrift f)

section Readings

/-! What sets the three apart, and what they share from then on. -/

def readValue : (p : NameFilter) → String → Option p.Value
  | .alertPriority => AlertPriority.ofTyped?
  | .operationStatus => OperationStatus.ofTyped?
  | .driftCategory => DriftCategory.ofTyped?

def summary : NameFilter → String
  | .alertPriority => "Unknown alert priority"
  | .operationStatus => "Unknown operation request status"
  | .driftCategory => "Unknown drift category"

def ofValues : (p : NameFilter) → List p.Value → p.Filter
  | .alertPriority => fun values => ⟨values, .everything⟩
  | .operationStatus => fun values => ⟨values, .everything⟩
  | .driftCategory => fun values => ⟨values, none, none, none, .everything⟩

def stored (inv : Inventory) : (p : NameFilter) → List p.Row
  | .alertPriority => inv.alerts
  | .operationStatus => inv.operations
  | .driftCategory => inv.drift

variable {p : NameFilter} {raw piece : String} {now : Instant}

theorem readValue_eq_some_iff {v : p.Value} : p.readValue piece = some v ↔ p.Names piece v := by
  rw [Names]
  generalize hs : Text.asciiUpper (Text.trim piece) = s
  cases p with
  | alertPriority =>
    rw [readValue, AlertPriority.ofTyped?, hs]
    exact AlertPriority.ofName?_eq_some_iff.trans List.mem_singleton.symm
  | operationStatus =>
    rw [readValue, OperationStatus.ofTyped?, hs]
    exact OperationStatus.ofName?_eq_some_iff
  | driftCategory =>
    rw [readValue, DriftCategory.ofTyped?, hs]
    exact DriftCategory.ofName?_eq_some_iff.trans List.mem_singleton.symm

theorem accepts_ofValues {values : List p.Value} {row : p.Row} :
    p.accepts (p.ofValues values) row = true ↔ values = [] ∨ p.value row ∈ values := by
  cases p <;>
    simp [accepts, ofValues, value, AlertFilter.accepts, OperationFilter.accepts,
      DriftFilter.accepts, TimeWindow.contains, TimeWindow.everything]

theorem rows_eq (inv : Inventory) (p : NameFilter) (f : p.Filter) :
    p.rows inv f = Inventory.newestFirst p.createdAt ((p.stored inv).filter (p.accepts f)) := by
  cases p <;> rfl

@[simp] theorem readValue_trim (p : NameFilter) (piece : String) :
    p.readValue (Text.trim piece) = p.readValue piece := by
  refine Option.ext fun v => ?_
  rw [readValue_eq_some_iff, readValue_eq_some_iff, Names, Names, Text.trim_trim]

theorem readValue_eq_none_iff : p.readValue piece = none ↔ ¬p.Known piece := by
  simp only [Known, ← readValue_eq_some_iff, Option.eq_none_iff_forall_ne_some, not_exists, ne_eq]

/-- The values that the pieces of a text name. -/
def valuesOf (p : NameFilter) (raw : String) : List p.Value :=
  (filledPieces raw).filterMap p.readValue

theorem mem_valuesOf {v : p.Value} :
    v ∈ p.valuesOf raw ↔ ∃ piece ∈ filledPieces raw, p.Names piece v := by
  simp only [valuesOf, List.mem_filterMap, readValue_eq_some_iff]

theorem read_eq (p : NameFilter) (raw : String) (now : Instant) :
    p.read raw now =
      match (filledPieces raw).find? fun piece => (p.readValue piece).isNone with
      | some piece =>
        .error (.invalid p.summary ("unrecognized filter value " ++ Text.trim piece))
      | none => .ok (p.ofValues (p.valuesOf raw)) := by
  have hlist : p.read raw now =
      ((listPieces raw).mapM (readPiece p.readValue p.summary)).map p.ofValues := by
    cases p <;> rfl
  rw [hlist, mapM_readPiece, listPieces_eq, List.find?_map, List.filterMap_map, valuesOf]
  simp only [Function.comp_def, readValue_trim]
  cases (filledPieces raw).find? fun piece => (p.readValue piece).isNone <;> rfl

theorem read_of_known (now : Instant) (h : ∀ piece ∈ filledPieces raw, p.Known piece) :
    p.read raw now = .ok (p.ofValues (p.valuesOf raw)) := by
  have hnone : (filledPieces raw).find? (fun piece => (p.readValue piece).isNone) = none := by
    simpa [readValue_eq_none_iff] using h
  rw [read_eq, hnone]

theorem read_of_not_known (now : Instant) (h : ∃ piece ∈ filledPieces raw, ¬p.Known piece) :
    ∃ piece ∈ filledPieces raw, ¬p.Known piece ∧ p.read raw now =
      .error (.invalid p.summary ("unrecognized filter value " ++ Text.trim piece)) := by
  have hsome : ((filledPieces raw).find? fun piece => (p.readValue piece).isNone).isSome := by
    simpa [readValue_eq_none_iff] using h
  obtain ⟨piece, hpiece⟩ := Option.isSome_iff_exists.mp hsome
  refine ⟨piece, List.mem_of_find?_eq_some hpiece, ?_, ?_⟩
  · simpa [readValue_eq_none_iff] using List.find?_some hpiece
  · rw [read_eq, hpiece]

theorem read_eq_ok_iff {f : p.Filter} :
    p.read raw now = .ok f ↔
      (∀ piece ∈ filledPieces raw, p.Known piece) ∧ p.ofValues (p.valuesOf raw) = f := by
  by_cases h : ∀ piece ∈ filledPieces raw, p.Known piece
  · rw [read_of_known now h, Except.ok.injEq, and_iff_right h]
  · obtain ⟨piece, hpiece, hnot, hread⟩ := read_of_not_known now (by simpa using h)
    simp [hread, h]

theorem of_read_eq_error {e : Fault} (he : p.read raw now = .error e) :
    ∃ piece ∈ filledPieces raw, ¬p.Known piece ∧
      e = .invalid p.summary ("unrecognized filter value " ++ Text.trim piece) := by
  by_cases h : ∃ piece ∈ filledPieces raw, ¬p.Known piece
  · obtain ⟨piece, hpiece, hnot, hread⟩ := read_of_not_known now h
    exact ⟨piece, hpiece, hnot, Except.error.inj (he.symm.trans hread)⟩
  · simp only [not_exists, not_and, not_not] at h
    simp [read_of_known now h] at he

theorem valuesOf_eq_nil_iff (h : ∀ piece ∈ filledPieces raw, p.Known piece) :
    p.valuesOf raw = [] ↔ filledPieces raw = [] := by
  rw [valuesOf, List.filterMap_eq_nil_iff, List.eq_nil_iff_forall_not_mem]
  refine forall₂_congr fun piece hpiece => ?_
  simpa [readValue_eq_none_iff] using h piece hpiece

theorem accepts_iff {f : p.Filter} (hf : p.read raw now = .ok f) (row : p.Row) :
    p.accepts f row = true ↔
      filledPieces raw = [] ∨ ∃ piece ∈ filledPieces raw, p.Names piece (p.value row) := by
  obtain ⟨hknown, rfl⟩ := read_eq_ok_iff.mp hf
  rw [accepts_ofValues, valuesOf_eq_nil_iff hknown, mem_valuesOf]

end Readings

section Rows

variable {p : NameFilter} {raw other : String} {now : Instant} {f g : p.Filter}

theorem rows_congr (h : ∀ row, p.accepts f row = true ↔ p.accepts g row = true)
    (inv : Inventory) : p.rows inv f = p.rows inv g := by
  have haccepts : p.accepts f = p.accepts g := funext fun row => Bool.eq_iff_iff.mpr (h row)
  rw [rows_eq, rows_eq, haccepts]

/-- A filter that accepts more rows leaves the others where they are. -/
theorem rows_sublist (h : ∀ row, p.accepts f row = true → p.accepts g row = true)
    (inv : Inventory) : (p.rows inv f).Sublist (p.rows inv g) := by
  rw [rows_eq, rows_eq, Inventory.newestFirst_filter, Inventory.newestFirst_filter]
  exact List.monotone_filter_right _ h

theorem exists_names_iff (h : SamePieces raw other) (v : p.Value) :
    (∃ piece ∈ filledPieces raw, p.Names piece v) ↔
      ∃ piece ∈ filledPieces other, p.Names piece v := by
  refine h.exists_iff fun piece => ?_
  rw [Names, Names, Text.trim_trim]

theorem exists_not_known_iff (h : SamePieces raw other) :
    (∃ piece ∈ filledPieces raw, ¬p.Known piece) ↔
      ∃ piece ∈ filledPieces other, ¬p.Known piece := by
  refine h.exists_iff fun piece => ?_
  rw [← readValue_eq_none_iff, ← readValue_eq_none_iff, readValue_trim]

theorem toOption_map_rows (h : SamePieces raw other) (p : NameFilter) (now : Instant)
    (inv : Inventory) :
    (p.read raw now).toOption.map (p.rows inv) = (p.read other now).toOption.map (p.rows inv) := by
  by_cases hknown : ∃ piece ∈ filledPieces raw, ¬p.Known piece
  · obtain ⟨_, _, _, hread⟩ := read_of_not_known now hknown
    obtain ⟨_, _, _, hother⟩ := read_of_not_known now ((exists_not_known_iff h).mp hknown)
    rw [hread, hother]
    rfl
  · have hknown' := mt (exists_not_known_iff h).mpr hknown
    simp only [not_exists, not_and, not_not] at hknown hknown'
    have hread := read_of_known now hknown
    have hother := read_of_known now hknown'
    rw [hread, hother]
    refine congrArg some (rows_congr (fun row => ?_) inv)
    rw [accepts_iff hread, accepts_iff hother, h.eq_nil_iff, exists_names_iff h]

/-- One more known name only adds rows if there is a name already. -/
theorem exists_read_insert (hread : p.read raw now = .ok f) {name : String}
    {front back : List String} (hnamed : ∃ piece ∈ filledPieces raw, p.Known piece)
    (hname : p.Known name) (hraw : Text.fieldsOn ',' raw = front ++ back)
    (hother : Text.fieldsOn ',' other = front ++ name :: back) :
    ∃ g, p.read other now = .ok g ∧ ∀ inv, (p.rows inv f).Sublist (p.rows inv g) := by
  have hkept : (filledPieces raw).Sublist (filledPieces other) := by
    rw [filledPieces, filledPieces, hraw, hother]
    exact ((List.sublist_cons_self name back).append_left front).filter _
  have hknown : ∀ piece ∈ filledPieces other, p.Known piece := by
    intro piece h
    rw [filledPieces, List.mem_filter, hother, List.perm_middle.mem_iff, List.mem_cons] at h
    obtain ⟨rfl | hpiece, hfilled⟩ := h
    · exact hname
    · refine (read_eq_ok_iff.mp hread).1 piece ?_
      rw [filledPieces, hraw]
      exact List.mem_filter.mpr ⟨hpiece, hfilled⟩
  have hmore := read_of_known now hknown
  refine ⟨_, hmore, rows_sublist fun row haccepts => ?_⟩
  rw [accepts_iff hread] at haccepts
  rw [accepts_iff hmore]
  obtain hnil | ⟨piece, hpiece, hnames⟩ := haccepts
  · obtain ⟨piece, hpiece, -⟩ := hnamed
    simp [hnil] at hpiece
  · exact .inr ⟨piece, hkept.subset hpiece, hnames⟩

end Rows

/-- A list of names fails over a piece that is not known, and otherwise accepts the rows whose
values it names, or all rows if there is no name in it. The first name therefore takes rows away,
and every other name can only add some. -/
theorem named_values_accepted (p : NameFilter) (raw : String) (now : Instant) :
    ((∃ e, p.read raw now = .error e) ↔ ∃ piece ∈ filledPieces raw, ¬p.Known piece) ∧
      (∀ e, p.read raw now = .error e → e.kind = .invalidInput) ∧
      (∀ f, p.read raw now = .ok f → ∀ row, p.accepts f row = true ↔
        filledPieces raw = [] ∨ ∃ piece ∈ filledPieces raw, p.Names piece (p.value row)) ∧
      (∀ other, SamePieces raw other → ∀ inv,
        (p.read raw now).toOption.map (p.rows inv) =
          (p.read other now).toOption.map (p.rows inv)) ∧
      ∀ f name front back more, p.read raw now = .ok f →
        (∃ piece ∈ filledPieces raw, p.Known piece) → p.Known name →
        Text.fieldsOn ',' raw = front ++ back → Text.fieldsOn ',' more = front ++ name :: back →
        ∃ g, p.read more now = .ok g ∧ ∀ inv, (p.rows inv f).Sublist (p.rows inv g) := by
  refine ⟨⟨fun ⟨e, he⟩ => ?_, fun h => ?_⟩, fun e he => ?_, fun f hf => accepts_iff hf,
    fun other h inv => toOption_map_rows h p now inv,
    fun f name front back more hf hnamed hname => exists_read_insert hf hnamed hname⟩
  · obtain ⟨piece, hpiece, hnot, -⟩ := of_read_eq_error he
    exact ⟨piece, hpiece, hnot⟩
  · obtain ⟨_, _, _, hread⟩ := read_of_not_known now h
    exact ⟨_, hread⟩
  · obtain ⟨_, _, _, rfl⟩ := of_read_eq_error he
    rfl

namespace Statuses

/-- Two statuses, one of them under both of its names. -/
def named : String := " in_progress ,, InProgress,failure"

def rearranged : String := "failure,InProgress, failure,in_progress,  "

def widened : String := " in_progress ,, InProgress,success,failure"

def misnamed : String := "failure, in progress"

theorem filledPieces_named : filledPieces named = [" in_progress ", " InProgress", "failure"] := by
  cbv

theorem not_known_in_progress : ¬operationStatus.Known " in progress" := by
  rw [← readValue_eq_none_iff]
  cbv

theorem samePieces_rearranged : SamePieces named rearranged := by
  have hnamed : (filledPieces named).map Text.trim = ["in_progress", "InProgress", "failure"] := by
    cbv
  have hrearranged : (filledPieces rearranged).map Text.trim =
      ["failure", "InProgress", "failure", "in_progress"] := by
    cbv
  intro s
  simp only [hnamed, hrearranged, List.mem_cons, List.not_mem_nil, or_false]
  tauto

theorem named_values_accepted_statuses :
    (∃ e, operationStatus.read misnamed .epoch = .error e ∧ e.kind = .invalidInput) ∧
      ∃ f, operationStatus.read named .epoch = .ok f ∧
        (∀ row : OperationRow, operationStatus.accepts f row = true ↔
          row.status = .inProgress ∨ row.status = .failure) ∧
        (∀ inv, (operationStatus.read rearranged .epoch).toOption.map (operationStatus.rows inv) =
          some (operationStatus.rows inv f)) ∧
        ∃ g, operationStatus.read widened .epoch = .ok g ∧
          ∀ inv, (operationStatus.rows inv f).Sublist (operationStatus.rows inv g) := by
  obtain ⟨hfails, hkind, -⟩ := named_values_accepted operationStatus misnamed .epoch
  obtain ⟨-, -, haccepts, hsame, hwidened⟩ := named_values_accepted operationStatus named .epoch
  have hread : operationStatus.read named .epoch =
      .ok ⟨[.inProgress, .inProgress, .failure], .everything⟩ := by
    cbv
  have hmisnamed : filledPieces misnamed = ["failure", " in progress"] := by cbv
  obtain ⟨e, he⟩ := hfails.mpr ⟨" in progress", by simp [hmisnamed], not_known_in_progress⟩
  refine ⟨⟨e, he, hkind e he⟩, _, hread, fun row => ?_, fun inv => ?_, ?_⟩
  · rw [haccepts _ hread, filledPieces_named]
    change _ ∨ (∃ piece ∈ _, operationStatus.Names piece row.status) ↔ _
    cases row.status <;> decide
  · rw [← hsame rearranged samePieces_rearranged inv, hread]
    rfl
  · refine hwidened _ "success" [" in_progress ", "", " InProgress"] ["failure"] widened hread
      ⟨"failure", by simp [filledPieces_named], .failure, ?_⟩ ⟨.success, ?_⟩ ?_ ?_
    · decide
    · decide
    · cbv
    · cbv

end Statuses

end NameFilter

end Report

end FleetConsole
