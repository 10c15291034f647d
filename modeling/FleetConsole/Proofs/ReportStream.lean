import Mathlib
import FleetConsole.Proofs.Paging
import FleetConsole.Proofs.ReportTexts

/-! A report from its first piece to its last. It does not begin when its first page fails; once it
has begun, it is closed only after the last of all rows, and a fault is the end of it. -/
namespace FleetConsole.Report

namespace Output

/-- Chunks, and behind them the fault that they end in. -/
def of (chunks : List String) (ending : Ending) : Output :=
  ⟨chunks.map .ok ++ ending.fault?.toList.map .error, ending.ends⟩

variable (pieces : List String) (e : Ending)

@[simp] theorem items_of : (of pieces e).items = pieces.map .ok ++ e.fault?.toList.map .error := rfl

@[simp] theorem ends_of : (of pieces e).ends = e.ends := rfl

@[simp] theorem chunks_of : (of pieces e).chunks = pieces := by
  rw [chunks, items_of]
  induction pieces with
  | nil => cases e <;> rfl
  | cons piece pieces ih => exact congrArg (piece :: ·) ih

@[simp] theorem failure?_of : (of pieces e).failure? = e.fault? := by
  rw [failure?, items_of]
  induction pieces with
  | nil => cases e <;> rfl
  | cons piece pieces ih => exact ih

@[simp] theorem ending_of : (of pieces e).ending = e := by
  rw [ending, failure?_of, ends_of]
  cases e <;> rfl

theorem collectOnto_append (ends : Bool) (body : String) (rest : List (Except Fault String)) :
    collectOnto ends body (pieces.map .ok ++ rest) =
      collectOnto ends (body ++ String.join pieces) rest := by
  induction pieces generalizing body with
  | nil => simp
  | cons piece pieces ih =>
    rw [List.map_cons, List.cons_append, collectOnto, ih, String.join_cons, String.append_assoc]

@[simp] theorem collect?_of : (of pieces e).collect? =
    match e with
    | .complete => some (.ok (String.join pieces))
    | .failed e => some (.error e)
    | .endless => none := by
  rw [collect?, items_of, collectOnto_append, String.empty_append]
  cases e <;> rfl

theorem collect?_of_complete : (of pieces .complete).collect? = some (.ok (Xml.concat pieces)) := by
  rw [collect?_of, Xml.concat_eq_join]

end Output

theorem Fetch.Reads.exists_ok {σ Row : Type} {fetch : Fetch σ Row} {c : PageControl} {s after : σ}
    {pages : List (Page Row)} {ending : Ending} (h : fetch.Reads c s pages ending after)
    (hpages : pages ≠ []) : ∃ page between, fetch c s = (.ok page, between) := by
  cases h with
  | failed => exact absurd rfl hpages
  | last h | more h | endless h => exact ⟨_, _, h⟩

theorem Fetch.Reads.exists_error {σ Row : Type} {fetch : Fetch σ Row} {c : PageControl}
    {s after : σ} {ending : Ending} (h : fetch.Reads c s [] ending after) :
    ∃ e, fetch c s = (.error e, after) := by
  cases h with
  | failed h => exact ⟨_, h⟩

namespace Writer

variable {σ Row : Type} (w : Writer Row)

/-- Only a whole report is closed. -/
def closing : Ending → List String
  | .complete => w.foot
  | .failed _ | .endless => []

theorem closing_csv (hformat : w.format = .csv) (ending : Ending) : w.closing ending = [] := by
  cases ending <;> simp [closing, foot, hformat]

/-- The chunks that are written for rows that end in some way. -/
def chunks (rows : List Row) (ending : Ending) : List String :=
  w.opening :: rows.map w.chunk ++ w.closing ending

/-- The rows are written one by one, and a fault behind them ends the writing before the foot. -/
theorem sendRows_eq (rows : List Row) (ending : Ending) :
    w.sendRows ending.ends (rows.map .ok ++ ending.fault?.toList.map .error) =
      (rows.map w.chunk ++ w.closing ending).map .ok ++ ending.fault?.toList.map .error := by
  induction rows with
  | nil => cases ending <;> simp [sendRows, closing, Ending.fault?, Ending.ends]
  | cons row rows ih =>
    rw [List.map_cons, List.cons_append, sendRows, ih]
    rfl

/-- However the turns are taken, the reader gets the chunks and the fault. -/
theorem output_eq (capacity : Nat) (run : Run σ Row) :
    w.output capacity run = .of (w.chunks run.rows run.ending) run.ending := by
  rw [output, Channel.relay_eq, send, Run.items, sendRows_eq]
  rfl

theorem chunks_output (capacity : Nat) (run : Run σ Row) :
    (w.output capacity run).chunks = w.chunks run.rows run.ending := by
  rw [output_eq, Output.chunks_of]

theorem collect?_output (capacity : Nat) (run : Run σ Row) :
    (w.output capacity run).collect? =
      match run.ending with
      | .complete => some (.ok (Xml.concat (w.chunks run.rows .complete)))
      | .failed e => some (.error e)
      | .endless => none := by
  rw [output_eq, Output.collect?_of, Xml.concat_eq_join]
  cases run.ending <;> rfl

theorem report_of_error {fetch : Fetch σ Row} {options : StreamOptions} {s after : σ} {e : Fault}
    (h : fetch (.first options.pageSize) s = (.error e, after)) :
    w.report fetch options s = (.error e, after) := by
  rw [report, Fetch.start, h]

theorem report_of_ok {fetch : Fetch σ Row} {options : StreamOptions} {s between : σ}
    {page : Page Row} (h : fetch (.first options.pageSize) s = (.ok page, between)) :
    w.report fetch options s =
      (.ok (w.output options.channelCapacity (fetch.rowsAt (.first options.pageSize) s)),
        (fetch.rowsAt (.first options.pageSize) s).state) := by
  rw [report, Fetch.start, h, fetch.rowsAt_of_ok h]

theorem report_eq_error_iff {fetch : Fetch σ Row} {options : StreamOptions} {s : σ} {e : Fault} :
    (w.report fetch options s).1 = .error e ↔
      (fetch (.first options.pageSize) s).1 = .error e := by
  cases h : fetch (.first options.pageSize) s with
  | mk answer after =>
    cases answer with
    | error e' => simp [w.report_of_error h]
    | ok page => simp [w.report_of_ok h]

theorem output_of_reads {fetch : Fetch σ Row} {options : StreamOptions} {s after : σ}
    {pages : List (Page Row)} {ending : Ending} {output : Output}
    (h : fetch.Reads (.first options.pageSize) s pages ending after)
    (houtput : (w.report fetch options s).1 = .ok output) :
    pages ≠ [] ∧ output =
      w.output options.channelCapacity ⟨pages.flatMap Page.items, ending, after⟩ := by
  have hpages : pages ≠ [] := by
    rintro rfl
    obtain ⟨e, hfetch⟩ := h.exists_error
    rw [w.report_of_error hfetch] at houtput
    simp at houtput
  obtain ⟨page, between, hfetch⟩ := h.exists_ok hpages
  rw [w.report_of_ok hfetch, fetch.rowsAt_of_reads h] at houtput
  exact ⟨hpages, (Except.ok.inj houtput).symm⟩

/-- What a report that has begun consists of, and when it is a whole. -/
theorem exists_reads_of_report {fetch : Fetch σ Row} {options : StreamOptions} {s : σ}
    {output : Output} (h : (w.report fetch options s).1 = .ok output) :
    ∃ pages ending after, fetch.Reads (.first options.pageSize) s pages ending after ∧
      output.chunks = w.chunks (pages.flatMap Page.items) ending ∧
      ∀ body, output.collect? = some (.ok body) ↔
        ending = .complete ∧ body = Xml.concat output.chunks := by
  obtain ⟨pages, ending, after, hreads⟩ := fetch.exists_reads (.first options.pageSize) s
  obtain ⟨-, rfl⟩ := w.output_of_reads hreads h
  refine ⟨pages, ending, after, hreads, w.chunks_output _ _, fun body => ?_⟩
  rw [collect?_output, chunks_output]
  cases ending <;> simp [eq_comm]

/-- A report is refused exactly if its first page fails, with the fault of that page. Any other one
consists of an opening, a chunk for each row fetched, and the closing if all pages were fetched, or
else the fault of the one that failed, in any way in which its writer and its reader may take
turns. -/
theorem report_closed_or_failed (fetch : Fetch σ Row) (options : StreamOptions) (s : σ) :
    w.Spelled ∧
    (∀ e, (w.report fetch options s).1 = .error e ↔
      (fetch (.first options.pageSize) s).1 = .error e) ∧
    ∀ output, (w.report fetch options s).1 = .ok output →
      ∃ pages ending after, fetch.Reads (.first options.pageSize) s pages ending after ∧
        pages ≠ [] ∧
        (∀ got, (Channel.ofCapacity options.channelCapacity).Passes
          (w.send ⟨pages.flatMap Page.items, ending, after⟩) got ↔ got = output.items) ∧
        let body := w.opening :: (pages.flatMap Page.items).map w.chunk
        match ending with
        | .complete => output.items = (body ++ w.foot).map .ok ∧
            output.collect? = some (.ok (String.join (body ++ w.foot)))
        | .failed e => output.items = body.map .ok ++ [.error e] ∧
            output.collect? = some (.error e)
        | .endless => output.items = body.map .ok ∧ ¬output.ends ∧ output.collect? = none := by
  obtain ⟨pages, ending, after, hreads⟩ := fetch.exists_reads (.first options.pageSize) s
  refine ⟨w.spelled, fun e => w.report_eq_error_iff, fun output houtput => ?_⟩
  obtain ⟨hpages, rfl⟩ := w.output_of_reads hreads houtput
  refine ⟨pages, ending, after, hreads, hpages, fun got => ?_, ?_⟩
  · rw [Channel.passes_iff, output, Channel.relay_eq]
  · rw [output_eq]
    cases ending with
    | complete => simp [chunks, closing, Ending.fault?]
    | failed e => simp [chunks, closing, Ending.fault?]
    | endless => simp [chunks, closing, Ending.fault?, Ending.ends]

end Writer

/-- The writer of the report for the criteria. -/
def Criteria.writer (c : Criteria) (format : ReportFormat) (base : LinkBase) : Writer c.Row :=
  ⟨c.kind, format, c.layout, base⟩

theorem startReport_eq_report {σ : Type} (source : Source σ) (c : Criteria) (format : ReportFormat)
    (base : LinkBase) (options : StreamOptions) (s : σ) :
    startReport source c format base options s =
      (c.writer format base).report (source c) options s := rfl

namespace SixRows

/-- Each number with a text that needs care in a line and in markup. -/
def numbers (format : ReportFormat) : Writer Nat where
  kind := .suspectMetrics
  format := format
  layout := ⟨[⟨"Number", "number"⟩, ⟨"Bound", "bound"⟩], "row",
    fun _ n => [toString n, "<" ++ toString (n + 1) ++ ", open"]⟩
  base := .ofUrl "http://rhq:7080"

/-- The third page fails when all six rows are out already, and the document stays open. Lines have
no closing. A first page that fails is the answer. -/
theorem report_closed_or_failed_six_rows :
    (∃ output,
      ((numbers .xml).report (fetch fun k => if 2 ≤ k then some fault else none) ⟨3, 1⟩ ()).1 =
          .ok output ∧
        output.items =
          [.ok "<?xml version=\"1.0\" encoding=\"UTF-8\"?>\n<suspectMetrics>\n",
            .ok "  <row><number>0</number><bound>&lt;1, open</bound></row>\n",
            .ok "  <row><number>1</number><bound>&lt;2, open</bound></row>\n",
            .ok "  <row><number>2</number><bound>&lt;3, open</bound></row>\n",
            .ok "  <row><number>3</number><bound>&lt;4, open</bound></row>\n",
            .ok "  <row><number>4</number><bound>&lt;5, open</bound></row>\n",
            .ok "  <row><number>5</number><bound>&lt;6, open</bound></row>\n", .error fault]) ∧
      (∃ output, ((numbers .csv).report (fetch fun _ => none) ⟨3, 1⟩ ()).1 = .ok output ∧
        output.collect? = some (.ok ("Number,Bound\n0,<1  open\n1,<2  open\n2,<3  open\n" ++
          "3,<4  open\n4,<5  open\n5,<6  open\n"))) ∧
      ((numbers .xml).report (fetch fun _ => some fault) ⟨3, 1⟩ ()).1 = .error fault := by
  obtain ⟨-, -, hwritten⟩ := (numbers .xml).report_closed_or_failed
    (fetch fun k => if 2 ≤ k then some fault else none) ⟨3, 1⟩ ()
  obtain ⟨-, -, hwhole⟩ := (numbers .csv).report_closed_or_failed (fetch fun _ => none) ⟨3, 1⟩ ()
  obtain ⟨-, hrefused, -⟩ :=
    (numbers .xml).report_closed_or_failed (fetch fun _ => some fault) ⟨3, 1⟩ ()
  refine ⟨⟨_, rfl, ?_⟩, ⟨_, rfl, ?_⟩, (hrefused fault).mpr rfl⟩
  · obtain ⟨pages, ending, after, hreads, -, -, hitems⟩ := hwritten _ rfl
    obtain ⟨pages', after', -, hrows, hreads'⟩ :=
      (serves 3 fun k => if 2 ≤ k then some fault else none).exists_reads_failed (f := 2)
        (by decide) (by decide) (by decide) rfl (by simp) ()
    obtain ⟨hsame, rfl⟩ := Fetch.Reads.unique _ hreads hreads'
    rw [hsame, hrows] at hitems
    exact hitems.1
  · obtain ⟨pages, ending, after, hreads, -, -, hitems⟩ := hwhole _ rfl
    obtain ⟨pages', after', -, hrows, hreads'⟩ :=
      (serves 3 fun _ => none).exists_reads_complete (by decide) (by decide) (by simp) ()
    obtain ⟨hsame, rfl⟩ := Fetch.Reads.unique _ hreads hreads'
    rw [hsame, hrows] at hitems
    exact hitems.2

end SixRows

end FleetConsole.Report
