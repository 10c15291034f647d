import FleetConsole.Proofs.InventoryReports
import FleetConsole.Proofs.Separators

/-! Lines whose fields are sanitized. No field has a separator left in it, and so a body cut at its
newlines, and each line at its commas, has the lines and the cells it was written with, whatever the
texts of the fields are. -/
namespace FleetConsole

namespace Report

namespace Csv

/-- A body cut into lines, and each line into cells. -/
def grid (body : String) : List (List String) :=
  (Text.fieldsOn '\n' body).map (Text.fieldsOn ',')

/-- What may stand in a cell. -/
def IsCell (s : String) : Prop := ',' ∉ s.toList ∧ '\n' ∉ s.toList

instance (s : String) : Decidable (IsCell s) := inferInstanceAs (Decidable (_ ∧ _))

theorem isCell_sanitize (field : String) : IsCell (sanitize field) := by
  rw [IsCell, toList_sanitize]
  constructor
  · intro hmem
    obtain ⟨c, -, hc⟩ := List.mem_map.mp hmem
    exact (sanitizeChar_ne c).1 hc
  · intro hmem
    obtain ⟨c, -, hc⟩ := List.mem_map.mp hmem
    exact (sanitizeChar_ne c).2 hc

theorem sanitize_eq_self {s : String} (h : IsCell s) : sanitize s = s := by
  have hchars : s.toList.map sanitizeChar = s.toList := by
    refine (List.map_congr_left fun c hc => ?_).trans (List.map_id _)
    have hcomma : c ≠ ',' := fun hc' => h.1 (hc' ▸ hc)
    have hnewline : c ≠ '\n' := fun hc' => h.2 (hc' ▸ hc)
    simp [sanitizeChar, hcomma, hnewline]
  rw [← String.toList_inj, toList_sanitize, hchars]

theorem map_sanitize_eq_self {fields : List String} (h : ∀ s ∈ fields, IsCell s) :
    fields.map sanitize = fields :=
  (List.map_congr_left fun s hs => sanitize_eq_self (h s hs)).trans (List.map_id fields)

/-- A line is the first of what it begins, with a cell for each field. -/
theorem grid_line_append {fields : List String} (hfields : fields ≠ []) (rest : String) :
    grid (line .sanitize fields ++ rest) = fields.map sanitize :: grid rest := by
  have hcells : ∀ s ∈ fields.map sanitize, IsCell s := by
    intro s hs
    obtain ⟨field, -, rfl⟩ := List.mem_map.mp hs
    exact isCell_sanitize field
  have hline : '\n' ∉ (Text.joinWith "," (fields.map sanitize)).toList := by
    intro hmem
    rcases Text.mem_joinWith hmem with hsep | ⟨s, hs, hnewline⟩
    · exact absurd hsep (by decide)
    · exact (hcells s hs).2 hnewline
  have htext : line .sanitize fields = Text.joinWith "," (fields.map sanitize) ++ "\n" := rfl
  rw [grid, htext, Text.fieldsOn_append hline rfl, List.map_cons,
    Text.fieldsOn_joinWith rfl (by simpa using hfields) fun s hs => (hcells s hs).1, grid]

theorem grid_lines {lists : List (List String)} (h : ∀ fields ∈ lists, fields ≠ []) :
    grid (Xml.concat (lists.map (line .sanitize))) =
      lists.map (List.map sanitize) ++ [[""]] := by
  induction lists with
  | nil => rfl
  | cons fields lists ih =>
    rw [List.forall_mem_cons] at h
    rw [List.map_cons, Xml.concat_cons, grid_line_append h.1, ih h.2, List.map_cons,
      List.cons_append]

/-- Quotes have no meaning here: they stay where they are. -/
example : grid (Xml.concat [line .sanitize ["a,b", "\"", ""], line .sanitize ["", "x\ny", ","]]) =
    [["a b", "\"", ""], ["", "x y", " "], [""]] := by decide

theorem headerLine_eq_sanitized {headers : List String} (h : ∀ s ∈ headers, IsCell s) :
    headerLine headers = line .sanitize headers := by
  have hplain : headers.map (field .sanitize) = headers := map_sanitize_eq_self h
  rw [headerLine, line, hplain]

end Csv

theorem ReportKind.csvStyle_eq_sanitize {k : ReportKind} (h : k ≠ .configurationHistory) :
    k.csvStyle = .sanitize := by
  cases k with
  | configurationHistory => exact absurd rfl h
  | _ => rfl

namespace Criteria

/-- The lines of a report: the headers, the fields of each row, and what is behind the last newline,
which is nothing. -/
def grid (c : Criteria) (base : LinkBase) (rows : List c.Row) : List (List String) :=
  c.layout.headers :: rows.map (fun row => (c.layout.fields base row).map Csv.sanitize) ++ [[""]]

theorem length_grid (c : Criteria) (base : LinkBase) (rows : List c.Row) :
    (c.grid base rows).length = rows.length + 2 := by
  simp [grid]

theorem length_of_mem_grid (c : Criteria) (base : LinkBase) (rows : List c.Row) :
    ∀ cells ∈ (c.grid base rows).dropLast, cells.length = c.layout.columns.length := by
  intro cells hmem
  rw [grid, List.dropLast_concat, List.mem_cons] at hmem
  rcases hmem with rfl | hrow
  · rw [Layout.headers, List.length_map]
  · obtain ⟨row, -, rfl⟩ := List.mem_map.mp hrow
    rw [List.length_map, c.length_fields]

theorem isCell_headers (c : Criteria) : ∀ s ∈ c.layout.headers, Csv.IsCell s := by
  cases c <;> dsimp only [layout, Row] <;> decide

theorem columns_ne_nil (c : Criteria) : c.layout.columns ≠ [] := by
  cases c <;> exact List.cons_ne_nil _ _

theorem grid_chunks (c : Criteria) (hkind : c.kind ≠ .configurationHistory) (base : LinkBase)
    (rows : List c.Row) (ending : Ending) :
    Csv.grid (Xml.concat ((c.writer .csv base).chunks rows ending)) = c.grid base rows := by
  have hchunks : (c.writer .csv base).chunks rows ending =
      (c.layout.headers :: rows.map (c.layout.fields base)).map (Csv.line .sanitize) := by
    have hopening : (c.writer .csv base).opening = Csv.line .sanitize c.layout.headers :=
      Csv.headerLine_eq_sanitized c.isCell_headers
    have hchunk (row : c.Row) :
        (c.writer .csv base).chunk row = Csv.line .sanitize (c.layout.fields base row) := by
      rw [← ReportKind.csvStyle_eq_sanitize hkind]
      rfl
    simp [Writer.chunks, hopening, hchunk, (c.writer .csv base).closing_csv rfl ending]
  have hcolumns := List.length_pos_iff.mpr c.columns_ne_nil
  have hfields : ∀ fields ∈ c.layout.headers :: rows.map (c.layout.fields base), fields ≠ [] := by
    intro fields hmem
    apply List.ne_nil_of_length_pos
    rcases List.mem_cons.mp hmem with rfl | hrow
    · rwa [Layout.headers, List.length_map]
    · obtain ⟨row, -, rfl⟩ := List.mem_map.mp hrow
      rwa [c.length_fields]
  rw [hchunks, Csv.grid_lines hfields, List.map_cons, Csv.map_sanitize_eq_self c.isCell_headers,
    List.map_map]
  rfl

end Criteria

/-- Lines with sanitized fields keep their shape. The body of a report that does not quote its
fields has a line for the headers and one for each row, each with a cell for each column, and in it
the field with blanks in place of commas and newlines. It is so for all rows fetched, also where the
report ends in a fault. -/
theorem sanitized_lines_keep_shape :
    (∀ lists : List (List String), (∀ fields ∈ lists, fields ≠ []) →
      Csv.grid (Xml.concat (lists.map (Csv.line .sanitize))) =
        lists.map (List.map Csv.sanitize) ++ [[""]]) ∧
    (∀ (c : Criteria) (base : LinkBase) (rows : List c.Row),
      (c.grid base rows).length = rows.length + 2 ∧
      ∀ cells ∈ (c.grid base rows).dropLast, cells.length = c.layout.columns.length) ∧
    ∀ c : Criteria, c.kind ≠ .configurationHistory → ∀ base : LinkBase,
      (∀ (rows : List c.Row) (σ : Type) (capacity : Nat) (after : σ),
        ∃ body,
          ((c.writer .csv base).output capacity ⟨rows, .complete, after⟩).collect? =
            some (.ok body) ∧
          Csv.grid body = c.grid base rows) ∧
      ∀ {σ : Type} (source : Source σ) (options : StreamOptions) (s : σ) (output : Output),
        (startReport source c .csv base options s).1 = .ok output →
        ∃ pages ending after,
          (source c).Reads (.first options.pageSize) s pages ending after ∧
          Csv.grid (Xml.concat output.chunks) = c.grid base (pages.flatMap Page.items) ∧
          ∀ body, output.collect? = some (.ok body) ↔
            ending = .complete ∧ body = Xml.concat output.chunks := by
  refine ⟨fun lists h => Csv.grid_lines h,
    fun c base rows => ⟨c.length_grid base rows, c.length_of_mem_grid base rows⟩,
    fun c hkind base => ⟨fun rows σ capacity after => ?_,
      fun {σ} source options s output houtput => ?_⟩⟩
  · exact ⟨_, Writer.collect?_output .., c.grid_chunks hkind base rows .complete⟩
  · obtain ⟨pages, ending, after, hreads, hchunks, hcollect⟩ :=
      (c.writer .csv base).exists_reads_of_report houtput
    refine ⟨pages, ending, after, hreads, ?_, hcollect⟩
    rw [hchunks, c.grid_chunks hkind]

namespace Separators

def lists : List (List String) := [["Name", "a,b\n"], [""], ["\n,", "\"x\""]]

def rows : List AlertDefinitionRow :=
  [⟨7, "low, or\nlower", some ",,", true, .high, .none, ⟨⟨10020⟩, "", none⟩⟩,
    ⟨8, "", none, false, .low, .template 3, ⟨⟨10020⟩, "db\n", none⟩⟩]

def inventory : Inventory := { Inventory.empty with alertDefinitions := rows }

def options : StreamOptions := ⟨1, 1⟩

theorem sanitized_lines_keep_shape_separators :
    Csv.grid (Xml.concat (lists.map (Csv.line .sanitize))) =
        [["Name", "a b "], [""], ["  ", "\"x\""], [""]] ∧
      ∃ output,
        (startReport (inventory.reportSource Unit) .alertDefinitions .csv (.ofUrl "") options
          ()).1 = .ok output ∧
        Csv.grid (Xml.concat output.chunks) = Criteria.alertDefinitions.grid (.ofUrl "") rows := by
  have hsize : (inventory.rows .alertDefinitions).length < max options.pageSize 1 * 2 ^ 32 := by
    decide
  obtain ⟨hlines, -, hreports⟩ := sanitized_lines_keep_shape
  obtain ⟨-, hfetched⟩ := hreports .alertDefinitions (by decide) (.ofUrl "")
  have houtput := inventory.startReport_eq .alertDefinitions hsize .csv (.ofUrl "") ()
  obtain ⟨pages, ending, after, hreads, hgrid, -⟩ :=
    hfetched (inventory.reportSource Unit) options () _ houtput
  rw [(inventory.rows_of_reads .alertDefinitions hsize hreads).1] at hgrid
  refine ⟨?_, _, houtput, hgrid⟩
  rw [hlines lists (by decide)]
  decide

end Separators

end Report

end FleetConsole
