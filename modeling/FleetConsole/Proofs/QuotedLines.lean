import FleetConsole.Proofs.InventoryReports

/-! Reading lines whose fields are in quotes where they need them. A reader that goes letter by
letter stands in front of the next field behind every separator, whatever the field before it
holds, and so it gets back the records that were written. -/
namespace FleetConsole.Report

namespace Csv

/-- Where a reader stands in a field. -/
inductive Place
  | start | bare | quoted
  /-- Behind a quote in quotes, which closes them unless it is doubled. -/
  | closed
  deriving DecidableEq, Repr

/-- What a reader has of the text so far: whole records, whole fields of the next one, and letters
of the next field. -/
structure Reader where
  records : List (List String)
  fields : List String
  letters : List Char
  place : Place
  deriving DecidableEq, Repr

namespace Reader

/-- The reader in front of a field. -/
def before (records : List (List String)) (fields : List String) : Reader :=
  ⟨records, fields, [], .start⟩

def keep (r : Reader) (c : Char) (place : Place) : Reader :=
  { r with letters := r.letters ++ [c], place := place }

def endField (r : Reader) : Reader := before r.records (r.fields ++ [String.ofList r.letters])

def endRecord (r : Reader) : Reader :=
  before (r.records ++ [r.fields ++ [String.ofList r.letters]]) []

/-- Outside quotes a comma ends a field and a newline a record. -/
def outside (r : Reader) (c : Char) (other : Option Reader) : Option Reader :=
  if c = ',' then some r.endField else if c = '\n' then some r.endRecord else other

/-- Reads a letter. Behind closed quotes only a separator may stand. -/
def step (r : Reader) (c : Char) : Option Reader :=
  match r.place with
  | .start =>
    if c = '"' then some { r with place := .quoted } else r.outside c (some (r.keep c .bare))
  | .bare => r.outside c (some (r.keep c .bare))
  | .quoted => some (if c = '"' then { r with place := .closed } else r.keep c .quoted)
  | .closed => if c = '"' then some (r.keep c .quoted) else r.outside c none

def run (r : Reader) (cs : List Char) : Option Reader := cs.foldlM step r

@[simp] theorem run_nil (r : Reader) : r.run [] = some r := rfl

@[simp] theorem run_cons (r : Reader) (c : Char) (cs : List Char) :
    r.run (c :: cs) = (r.step c).bind fun r => r.run cs := rfl

@[simp] theorem run_append (r : Reader) (cs ds : List Char) :
    r.run (cs ++ ds) = (r.run cs).bind fun r => r.run ds := List.foldlM_append

end Reader

/-- The records of a text, if each is ended by a newline. -/
def read? (text : String) : Option (List (List String)) :=
  ((Reader.before [] []).run text.toList).bind fun r =>
    if r = .before r.records [] then some r.records else none

namespace Reader

theorem step_comma {r : Reader} (h : r.place ≠ .quoted) : r.step ',' = some r.endField := by
  cases hplace : r.place <;> simp_all [step, outside]

theorem step_newline {r : Reader} (h : r.place ≠ .quoted) : r.step '\n' = some r.endRecord := by
  cases hplace : r.place <;> simp_all [step, outside]

/-- Letters that need no quotes are read as they are. -/
theorem exists_run_bare {cs : List Char} (hcs : ∀ c ∈ cs, needsQuotes c = false) {r : Reader}
    (hr : r.place = .start ∨ r.place = .bare) :
    ∃ place, place ≠ .quoted ∧
      r.run cs = some { r with letters := r.letters ++ cs, place := place } := by
  induction cs generalizing r with
  | nil =>
    refine ⟨r.place, ?_, by simp⟩
    rcases hr with hr | hr <;> simp [hr]
  | cons c cs ih =>
    rw [List.forall_mem_cons] at hcs
    have hstep : r.step c = some (r.keep c .bare) := by
      have hplain := hcs.1
      simp only [needsQuotes, Bool.or_eq_false_iff, decide_eq_false_iff_not] at hplain
      rcases hr with hr | hr <;> simp [step, outside, hr, hplain]
    obtain ⟨place, hplace, hrun⟩ := ih hcs.2 (r := r.keep c .bare) (.inr rfl)
    refine ⟨place, hplace, ?_⟩
    rw [run_cons, hstep, Option.bind_some, hrun]
    simp [keep]

/-- In quotes the reader undoes the doubling of quotes. -/
theorem run_doubled {r : Reader} (hr : r.place = .quoted) (cs : List Char) :
    r.run (cs.flatMap doubled) = some { r with letters := r.letters ++ cs } := by
  induction cs generalizing r with
  | nil => simp
  | cons c cs ih =>
    have hletter : r.run (doubled c) = some (r.keep c .quoted) := by
      by_cases hquote : c = '"'
      · simp [doubled, step, hr, hquote, keep]
      · simp [doubled, step, hr, hquote]
    rw [List.flatMap_cons, run_append, hletter, Option.bind_some, ih rfl]
    simp [keep, hr]

theorem exists_run_quoteChars (records : List (List String)) (fields : List String)
    (cs : List Char) :
    ∃ place, place ≠ .quoted ∧
      (before records fields).run (quoteChars cs) = some ⟨records, fields, cs, place⟩ := by
  by_cases hquotes : cs.any needsQuotes
  · refine ⟨.closed, by decide, ?_⟩
    have hopened : (before records fields).step '"' = some ⟨records, fields, [], .quoted⟩ := rfl
    rw [quoteChars, if_pos hquotes, List.cons_append, run_cons, hopened, Option.bind_some,
      run_append, run_doubled rfl]
    rfl
  · have hplain : ∀ c ∈ cs, needsQuotes c = false := by simpa using hquotes
    rw [quoteChars, if_neg hquotes]
    exact exists_run_bare hplain (.inl rfl)

theorem run_field_comma (records : List (List String)) (fields : List String) (field : String)
    (rest : List Char) :
    (before records fields).run ((quote field).toList ++ ',' :: rest) =
      (before records (fields ++ [field])).run rest := by
  obtain ⟨place, hplace, hrun⟩ := exists_run_quoteChars records fields field.toList
  rw [toList_quote, run_append, hrun, Option.bind_some, run_cons, step_comma hplace]
  simp [endField]

theorem run_field_newline (records : List (List String)) (fields : List String) (field : String)
    (rest : List Char) :
    (before records fields).run ((quote field).toList ++ '\n' :: rest) =
      (before (records ++ [fields ++ [field]]) []).run rest := by
  obtain ⟨place, hplace, hrun⟩ := exists_run_quoteChars records fields field.toList
  rw [toList_quote, run_append, hrun, Option.bind_some, run_cons, step_newline hplace]
  simp [endRecord]

theorem run_line (records : List (List String)) {fields : List String} (hfields : fields ≠ [])
    (seen : List String) (rest : List Char) :
    (before records seen).run ((line .quote fields).toList ++ rest) =
      (before (records ++ [seen ++ fields]) []).run rest := by
  induction fields generalizing seen with
  | nil => exact absurd rfl hfields
  | cons f fields ih =>
    cases fields with
    | nil =>
      have htext : (line .quote [f]).toList ++ rest = (quote f).toList ++ '\n' :: rest := by
        simp [line, field]
      rw [htext, run_field_newline]
    | cons g fields =>
      have htext : (line .quote (f :: g :: fields)).toList ++ rest =
          (quote f).toList ++ ',' :: ((line .quote (g :: fields)).toList ++ rest) := by
        simp [line, field, Text.joinWith_cons_cons]
      rw [htext, run_field_comma, ih (List.cons_ne_nil _ _)]
      simp

theorem run_lines {lines : List (List String)} (h : ∀ fields ∈ lines, fields ≠ [])
    (records : List (List String)) :
    (before records []).run (Xml.concat (lines.map (line .quote))).toList =
      some (before (records ++ lines) []) := by
  induction lines generalizing records with
  | nil => simp
  | cons fields lines ih =>
    rw [List.forall_mem_cons] at h
    rw [List.map_cons, Xml.concat_cons, String.toList_append, run_line records h.1 [], ih h.2]
    simp

end Reader

theorem read?_lines {lines : List (List String)} (h : ∀ fields ∈ lines, fields ≠ []) :
    read? (Xml.concat (lines.map (line .quote))) = some lines := by
  rw [read?, Reader.run_lines h]
  simp [Reader.before]

/-- What stands behind closed quotes, and a record without its newline, is not read. -/
example : read? "\"x,y\",\"say \"\"hi\"\"\",ok,\"two\nlines\"\n\n" =
      some [["x,y", "say \"hi\"", "ok", "two\nlines"], [""]] ∧
    read? "\"x\"y\n" = none ∧ read? "x\ny" = none := by decide

theorem quote_eq_self {s : String} (h : s.toList.any needsQuotes = false) : quote s = s := by
  rw [← String.toList_inj, toList_quote, quoteChars, if_neg (by simp [h])]

theorem headerLine_eq_line {headers : List String}
    (h : ∀ s ∈ headers, s.toList.any needsQuotes = false) :
    headerLine headers = line .quote headers := by
  have hplain : headers.map (field .quote) = headers :=
    (List.map_congr_left fun s hs => quote_eq_self (h s hs)).trans (List.map_id headers)
  rw [headerLine, line, hplain]

end Csv

theorem Writer.read?_chunks {Row : Type} (w : Writer Row) (hformat : w.format = .csv)
    (hstyle : w.kind.csvStyle = .quote) (hcolumns : w.layout.headers ≠ [])
    (hheaders : ∀ s ∈ w.layout.headers, s.toList.any Csv.needsQuotes = false)
    (hfields : ∀ row, w.layout.fields w.base row ≠ []) (rows : List Row) (ending : Ending) :
    Csv.read? (Xml.concat (w.chunks rows ending)) =
      some (w.layout.headers :: rows.map (w.layout.fields w.base)) := by
  have hchunks : w.chunks rows ending =
      (w.layout.headers :: rows.map (w.layout.fields w.base)).map (Csv.line .quote) := by
    have hopening : w.opening = Csv.line .quote w.layout.headers := by
      rw [opening, hformat]
      exact Csv.headerLine_eq_line hheaders
    have hchunk (row : Row) : w.chunk row = Csv.line .quote (w.layout.fields w.base row) := by
      rw [chunk, hformat, hstyle]
    simp [chunks, hopening, hchunk, w.closing_csv hformat]
  rw [hchunks]
  refine Csv.read?_lines fun fields hmem => ?_
  rcases List.mem_cons.mp hmem with rfl | hrow
  · exact hcolumns
  · obtain ⟨row, -, rfl⟩ := List.mem_map.mp hrow
    exact hfields row

/-- What is to be read in a history of configurations: the headers, then the fields of each row. -/
def historyRecords (base : LinkBase) (rows : List ConfigurationUpdateRow) : List (List String) :=
  ConfigurationUpdateRow.layout.headers :: rows.map (ConfigurationUpdateRow.layout.fields base)

theorem read?_history (base : LinkBase) (rows : List ConfigurationUpdateRow) (ending : Ending) :
    Csv.read? (Xml.concat ((Writer.mk .configurationHistory .csv ConfigurationUpdateRow.layout
      base).chunks rows ending)) = some (historyRecords base rows) := by
  have hcolumns : ConfigurationUpdateRow.layout.headers ≠ [] := by decide
  have hheaders : ∀ s ∈ ConfigurationUpdateRow.layout.headers,
      s.toList.any Csv.needsQuotes = false := by decide
  exact Writer.read?_chunks _ rfl rfl hcolumns hheaders (fun _ => List.cons_ne_nil _ _) rows ending

/-- Lines with quoted fields are read back as the records they were written for. A history of
configurations is so read as its headers and the fields of all rows fetched, also where it ends in a
fault, and one of an inventory is whole and has all rows. -/
theorem quoted_lines_read_back :
    (∀ lines : List (List String), (∀ fields ∈ lines, fields ≠ []) →
      Csv.read? (Xml.concat (lines.map (Csv.line .quote))) = some lines) ∧
    (∀ {σ : Type} (source : Source σ) (base : LinkBase) (options : StreamOptions) (s : σ)
      (output : Output),
      (startReport source .configurationHistory .csv base options s).1 = .ok output →
      ∃ pages ending after,
        Fetch.Reads (source .configurationHistory) (.first options.pageSize) s pages ending after ∧
        Csv.read? (Xml.concat output.chunks) =
          some (historyRecords base (pages.flatMap Page.items)) ∧
        ∀ body, output.collect? = some (.ok body) ↔
          ending = .complete ∧ body = Xml.concat output.chunks) ∧
    ∀ (inv : Inventory) (σ : Type) (base : LinkBase) (options : StreamOptions) (s : σ),
      (inv.rows .configurationHistory).length < max options.pageSize 1 * 2 ^ 32 →
      ∃ output body,
        (startReport (inv.reportSource σ) .configurationHistory .csv base options s).1 =
          .ok output ∧
        output.collect? = some (.ok body) ∧
        Csv.read? body = some (historyRecords base (inv.rows .configurationHistory)) := by
  refine ⟨fun lines h => Csv.read?_lines h, fun {σ} source base options s output houtput => ?_,
    fun inv σ base options s hsize => ?_⟩
  · obtain ⟨pages, ending, after, hreads⟩ :=
      (source .configurationHistory).exists_reads (.first options.pageSize) s
    obtain ⟨-, rfl⟩ := Writer.output_of_reads _ hreads houtput
    refine ⟨pages, ending, after, hreads, ?_, fun body => ?_⟩
    · rw [Writer.chunks_output]
      exact read?_history base _ ending
    · rw [Writer.collect?_output, Writer.chunks_output]
      cases ending <;> simp [eq_comm]
  · refine ⟨_, _, inv.startReport_eq .configurationHistory hsize .csv base s,
      Output.collect?_of_complete _, ?_⟩
    exact read?_history base _ .complete

namespace Quotations

def lines : List (List String) := [["Name", "a,b"], [""], ["say \"hi\"", "two\nlines", ""]]

def row : ConfigurationUpdateRow :=
  ⟨2, ⟨⟨10020⟩, "standalone \"1\", \nold", none⟩, .epoch, none, .inProgress, some "rhqadmin"⟩

def inventory : Inventory := { Inventory.empty with configurationUpdates := [row] }

theorem quoted_lines_read_back_quotations :
    Csv.read? (Xml.concat (lines.map (Csv.line .quote))) = some lines ∧
      ∃ output body, output.collect? = some (.ok body) ∧
        (startReport (inventory.reportSource Unit) .configurationHistory .csv (.ofUrl "") ⟨1, 1⟩
          ()).1 = .ok output ∧
        Csv.read? body = some (historyRecords (.ofUrl "") [row]) ∧
        Csv.read? (Xml.concat output.chunks) = some (historyRecords (.ofUrl "") [row]) := by
  have hrows : inventory.rows .configurationHistory = [row] := by
    cbv
  have hsize : (inventory.rows .configurationHistory).length < max 1 1 * 2 ^ 32 := by
    rw [hrows]
    decide
  obtain ⟨hlines, hfetched, hwhole⟩ := quoted_lines_read_back
  obtain ⟨output, body, houtput, hbody, hread⟩ :=
    hwhole inventory Unit (.ofUrl "") ⟨1, 1⟩ () hsize
  obtain ⟨pages, ending, after, -, -, hcollect⟩ :=
    hfetched (inventory.reportSource Unit) (.ofUrl "") ⟨1, 1⟩ () output houtput
  obtain ⟨-, rfl⟩ := (hcollect body).mp hbody
  rw [hrows] at hread
  exact ⟨hlines lines (by decide), output, _, hbody, houtput, hread, hread⟩

end Quotations

end FleetConsole.Report
