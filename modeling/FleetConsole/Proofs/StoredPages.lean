import FleetConsole.Database.Rehearsal
import FleetConsole.Database.Reports
import FleetConsole.Proofs.ReportStream

/-! Reports out of a database. A page is all of the reply or nothing: it is there if every cell of
every row can be used and every stored word is known, and then it has one item for each row. So a
report ends in the fault of the first reply of which some row cannot be read, behind the rows of the
replies before. -/
namespace FleetConsole.Database

open Report

section Cells

/-- Whether a cell can be used: null where it may be, and JSON that holds what it should. -/
def Column.Takes (c : Column) : Option c.type.Sent → Prop
  | none => c.optional = true
  | some sent => (c.type.read? sent).isSome = true

/-- Every cell of the row can be used. -/
def Fits : (columns : List Column) → Cells columns → Prop
  | [], _ => True
  | c :: cs, (cell, cells) => c.Takes cell ∧ Fits cs cells

/-- The text in a cell, if the column is one of texts. -/
def Column.sentText? : (c : Column) → Option c.type.Sent → Option String
  | ⟨_, .text, _⟩, cell => cell
  | _, _ => none

/-- The text that a row has in a column. -/
def sentText? (name : String) : (columns : List Column) → Cells columns → Option String
  | [], _ => none
  | c :: cs, (cell, cells) => if c.name = name then c.sentText? cell else sentText? name cs cells

/-- The text in a column once the row is read. -/
def Column.text? : (c : Column) → c.Content → Option String
  | ⟨_, .text, true⟩, content => content
  | ⟨_, .text, false⟩, content => some content
  | _, _ => none

def text? (name : String) : (columns : List Column) → Row columns → Option String
  | [], _ => none
  | c :: cs, (content, row) => if c.name = name then c.text? content else text? name cs row

theorem Column.exists_decode_iff (c : Column) (cell : Option c.type.Sent) :
    (∃ content, c.decode cell = .ok content) ↔ c.Takes cell := by
  obtain ⟨name, type, optional⟩ := c
  cases cell with
  | none => cases optional <;> simp [decode, Takes]
  | some sent => cases optional <;> cases h : type.read? sent <;> simp [decode, Takes, h]

theorem Column.text?_of_decode {c : Column} {cell : Option c.type.Sent} {content : c.Content}
    (h : c.decode cell = .ok content) : c.text? content = c.sentText? cell := by
  obtain ⟨name, type, optional⟩ := c
  cases type <;> cases optional <;> cases cell <;>
    simp_all [decode, text?, sentText?, ColumnType.read?]

theorem decodeRow_cons_eq_ok_iff {c : Column} {cs : List Column} {cell : Option c.type.Sent}
    {cells : Cells cs} {content : c.Content} {row : Row cs} :
    decodeRow (c :: cs) (cell, cells) = .ok (content, row) ↔
      c.decode cell = .ok content ∧ decodeRow cs cells = .ok row := by
  rw [decodeRow]
  cases c.decode cell <;> cases decodeRow cs cells <;> simp [bind, Except.bind, pure, Except.pure]

theorem exists_decodeRow_iff (columns : List Column) (cells : Cells columns) :
    (∃ row, decodeRow columns cells = .ok row) ↔ Fits columns cells := by
  induction columns with
  | nil => exact iff_of_true ⟨(), rfl⟩ trivial
  | cons c cs ih =>
    obtain ⟨cell, cells⟩ := cells
    rw [Fits, ← c.exists_decode_iff, ← ih]
    constructor
    · rintro ⟨⟨content, row⟩, h⟩
      obtain ⟨hcell, hcells⟩ := decodeRow_cons_eq_ok_iff.mp h
      exact ⟨⟨content, hcell⟩, row, hcells⟩
    · rintro ⟨⟨content, hcell⟩, row, hcells⟩
      exact ⟨(content, row), decodeRow_cons_eq_ok_iff.mpr ⟨hcell, hcells⟩⟩

theorem text?_of_decodeRow {columns : List Column} {cells : Cells columns} {row : Row columns}
    (name : String) (h : decodeRow columns cells = .ok row) :
    text? name columns row = sentText? name columns cells := by
  induction columns with
  | nil => rfl
  | cons c cs ih =>
    obtain ⟨cell, cells⟩ := cells
    obtain ⟨content, row⟩ := row
    obtain ⟨hcell, hcells⟩ := decodeRow_cons_eq_ok_iff.mp h
    rw [text?, sentText?, Column.text?_of_decode hcell, ih hcells]

end Cells

section Words

/-- A column of texts that stand for the values of an enumeration. -/
structure WordColumn where
  name : String
  /-- How a text is spelled before it is looked up. -/
  spelled : String → String
  words : List String

namespace WordColumn

def Knows (w : WordColumn) (text : Option String) : Prop := ∃ t ∈ text, w.spelled t ∈ w.words

/-- A column whose words have to be written as they are. -/
def exact (name : String) (words : List String) : WordColumn := ⟨name, id, words⟩

/-- A column whose words are found in any case and with blanks around them. -/
def loose (name : String) (words : List String) : WordColumn :=
  ⟨name, fun text => Text.asciiUpper (Text.trim text), words⟩

end WordColumn

/-- The columns of words in the replies for a report. -/
def wordColumns : Criteria → List WordColumn
  | .inventorySummary | .driftCompliance _ => [.exact "category" ["PLATFORM", "SERVER", "SERVICE"]]
  | .inventoryDetails _ => [.exact "category" ["PLATFORM", "SERVER", "SERVICE"],
      .exact "availability" ["UP", "DOWN", "DISABLED", "UNKNOWN"]]
  | .alertDefinitions | .recentAlerts _ => [.loose "priority" ["HIGH", "MEDIUM", "LOW"]]
  | .configurationHistory => [.exact "status" ["INPROGRESS", "IN_PROGRESS", "SUCCESS", "FAILURE",
      "NOCHANGE", "NO_CHANGE"]]
  | .suspectMetrics => []
  | .recentOperations _ => [.loose "status" ["INPROGRESS", "IN_PROGRESS", "SUCCESS", "FAILURE",
      "CANCELED"]]
  | .recentDrift _ => [.loose "category" ["FILE_ADDED", "FILE_CHANGED", "FILE_REMOVED"]]

/-- Every column of words holds a known one. -/
def HoldsWords (c : Criteria) (control : PageControl)
    (cells : Cells (pageQuery c control).columns) : Prop :=
  ∀ w ∈ wordColumns c, w.Knows (sentText? w.name _ cells)

theorem isSome_category_iff {word : String} : (Category.ofName? word).isSome ↔
    word ∈ ["PLATFORM", "SERVER", "SERVICE"] := by
  unfold Category.ofName?
  split <;> simp_all

theorem isSome_availability_iff {word : String} : (Availability.ofName? word).isSome ↔
    word ∈ ["UP", "DOWN", "DISABLED", "UNKNOWN"] := by
  unfold Availability.ofName?
  split <;> simp_all

theorem isSome_priority_iff {word : String} : (AlertPriority.ofName? word).isSome ↔
    word ∈ ["HIGH", "MEDIUM", "LOW"] := by
  unfold AlertPriority.ofName?
  split <;> simp_all

theorem isSome_configurationStatus_iff {word : String} :
    (ConfigurationUpdateStatus.ofStored? word).isSome ↔
      word ∈ ["INPROGRESS", "IN_PROGRESS", "SUCCESS", "FAILURE", "NOCHANGE", "NO_CHANGE"] := by
  unfold ConfigurationUpdateStatus.ofStored?
  split <;> simp_all

theorem isSome_operationStatus_iff {word : String} : (OperationStatus.ofName? word).isSome ↔
    word ∈ ["INPROGRESS", "IN_PROGRESS", "SUCCESS", "FAILURE", "CANCELED"] := by
  unfold OperationStatus.ofName?
  split <;> simp_all

theorem isSome_driftCategory_iff {word : String} : (DriftCategory.ofName? word).isSome ↔
    word ∈ ["FILE_ADDED", "FILE_CHANGED", "FILE_REMOVED"] := by
  unfold DriftCategory.ofName?
  split <;> simp_all

namespace WordColumn

variable {name : String} {words : List String} {text : Option String}

theorem knows_exact_iff (word : String) (h : text = some word) :
    (exact name words).Knows text ↔ word ∈ words := by
  simp [Knows, exact, h]

theorem knows_loose_iff (word : String) (h : text = some word) :
    (loose name words).Knows text ↔ Text.asciiUpper (Text.trim word) ∈ words := by
  simp [Knows, loose, h]

end WordColumn

section Readings

variable {α β γ ε : Type} {P Q : Prop}

theorem toOption_readWord {what value : String} {ofName : String → Option α} :
    (readWord what ofName value).toOption = ofName value := by
  rw [readWord]
  cases ofName value <;> rfl

theorem toOption_bind_pure {x : Except ε α} {f : α → β} :
    (x >>= fun a => pure (f a)).toOption = x.toOption.map f := by
  cases x <;> rfl

theorem isSome_readWord_iff {what value : String} {ofName : String → Option α}
    (h : (ofName value).isSome ↔ P) : (readWord what ofName value).toOption.isSome ↔ P := by
  rw [toOption_readWord, h]

theorem isSome_bind_pure_iff {x : Except ε α} {f : α → β} (h : x.toOption.isSome ↔ P) :
    (x >>= fun a => pure (f a)).toOption.isSome ↔ P := by
  rw [toOption_bind_pure, Option.isSome_map, h]

theorem isSome_bind_bind_iff {x : Except ε α} {y : Except ε β} {f : α → β → γ}
    (hx : x.toOption.isSome ↔ P) (hy : y.toOption.isSome ↔ Q) :
    (x >>= fun a => y >>= fun b => pure (f a b)).toOption.isSome ↔ P ∧ Q := by
  rw [← hx, ← hy]
  cases x <;> cases y <;> simp [bind, Except.bind, pure, Except.pure, Except.toOption]

theorem isSome_typeRef_iff {id : Int32} {name plugin category : String}
    {version : Option String} : (typeRef id name plugin category version).toOption.isSome ↔
      category ∈ ["PLATFORM", "SERVER", "SERVICE"] :=
  isSome_bind_pure_iff (isSome_readWord_iff isSome_category_iff)

end Readings

/-- A row whose cells can be used is read if every word in it is known. -/
theorem isSome_read_iff (c : Criteria) (control : PageControl)
    (row : Row (pageQuery c control).columns) :
    ((pageQuery c control).read row).toOption.isSome ↔
      ∀ w ∈ wordColumns c, w.Knows (text? w.name _ row) := by
  cases c with
  | inventorySummary =>
    obtain ⟨id, name, plugin, category, version, count, -⟩ := row
    rw [wordColumns, List.forall_mem_singleton]
    refine Iff.trans ?_ (WordColumn.knows_exact_iff category rfl).symm
    exact isSome_bind_pure_iff isSome_typeRef_iff
  | inventoryDetails f =>
    obtain ⟨id, name, plugin, category, version, resourceId, resourceName, ancestry, description,
      availability, -⟩ := row
    rw [wordColumns, List.forall_mem_cons, List.forall_mem_singleton]
    refine Iff.trans ?_ (and_congr (WordColumn.knows_exact_iff category rfl)
      (WordColumn.knows_exact_iff availability rfl)).symm
    exact isSome_bind_bind_iff isSome_typeRef_iff (isSome_readWord_iff isSome_availability_iff)
  | alertDefinitions =>
    obtain ⟨id, name, description, enabled, priority, templateId, groupId, resource⟩ := row
    rw [wordColumns, List.forall_mem_singleton]
    refine Iff.trans ?_ (WordColumn.knows_loose_iff priority rfl).symm
    exact isSome_bind_pure_iff (isSome_readWord_iff isSome_priority_iff)
  | configurationHistory =>
    obtain ⟨version, submittedAt, completedAt, status, user, resource⟩ := row
    rw [wordColumns, List.forall_mem_singleton]
    refine Iff.trans ?_ (WordColumn.knows_exact_iff status rfl).symm
    exact isSome_bind_pure_iff (isSome_readWord_iff isSome_configurationStatus_iff)
  | driftCompliance f =>
    obtain ⟨id, name, plugin, category, version, resourceId, resourceName, ancestry, compliant,
      -⟩ := row
    rw [wordColumns, List.forall_mem_singleton]
    refine Iff.trans ?_ (WordColumn.knows_exact_iff category rfl).symm
    exact isSome_bind_pure_iff isSome_typeRef_iff
  | suspectMetrics => exact iff_of_true rfl (List.forall_mem_nil _)
  | recentAlerts f =>
    obtain ⟨id, createdAt, definitionName, conditions, priority, acknowledgedBy, groupId, autoGroup,
      resource⟩ := row
    rw [wordColumns, List.forall_mem_singleton]
    refine Iff.trans ?_ (WordColumn.knows_loose_iff priority rfl).symm
    exact isSome_bind_pure_iff (isSome_readWord_iff isSome_priority_iff)
  | recentOperations f =>
    obtain ⟨historyId, createdAt, operation, requester, status, resource⟩ := row
    rw [wordColumns, List.forall_mem_singleton]
    refine Iff.trans ?_ (WordColumn.knows_loose_iff status rfl).symm
    exact isSome_bind_pure_iff (isSome_readWord_iff isSome_operationStatus_iff)
  | recentDrift f =>
    obtain ⟨id, createdAt, definition, snapshot, category, path, resource⟩ := row
    rw [wordColumns, List.forall_mem_singleton]
    refine Iff.trans ?_ (WordColumn.knows_loose_iff category rfl).symm
    exact isSome_bind_pure_iff (isSome_readWord_iff isSome_driftCategory_iff)

end Words

section Pages

variable {α β ε : Type}

theorem toOption_eq_some_iff {x : Except ε α} {a : α} : x.toOption = some a ↔ x = .ok a := by
  cases x <;> simp [Except.toOption]

theorem mapM_cons_eq_ok_iff {f : α → Except ε β} {a : α} {l : List α} {bs : List β} :
    (a :: l).mapM f = .ok bs ↔ ∃ b rest, f a = .ok b ∧ l.mapM f = .ok rest ∧ b :: rest = bs := by
  rw [List.mapM_cons]
  cases f a <;> cases l.mapM f <;> simp [bind, Except.bind, pure, Except.pure]

theorem mapM_eq_ok_iff {f : α → Except ε β} {l : List α} {bs : List β} :
    l.mapM f = .ok bs ↔ l.map (fun a => (f a).toOption) = bs.map some := by
  induction l generalizing bs with
  | nil => cases bs <;> simp [pure, Except.pure]
  | cons a l ih =>
    rw [mapM_cons_eq_ok_iff]
    cases bs with
    | nil => simp
    | cons b bs =>
      simp only [List.map_cons, List.cons.injEq, toOption_eq_some_iff, ← ih]
      constructor
      · rintro ⟨b, rest, hb, hrest, rfl, rfl⟩
        exact ⟨hb, hrest⟩
      · rintro ⟨hb, hrest⟩
        exact ⟨b, bs, hb, hrest, rfl, rfl⟩

theorem exists_of_mapM_eq_error {f : α → Except ε β} {l : List α} {e : ε}
    (h : l.mapM f = .error e) : ∃ a ∈ l, f a = .error e := by
  induction l with
  | nil => cases h
  | cons a l ih =>
    rw [List.mapM_cons] at h
    cases hfirst : f a with
    | error e' =>
      rw [hfirst] at h
      cases h
      exact ⟨a, List.mem_cons_self, hfirst⟩
    | ok b =>
      cases hrest : l.mapM f with
      | error e' =>
        rw [hfirst, hrest] at h
        cases h
        obtain ⟨a', hmem, ha'⟩ := ih hrest
        exact ⟨a', List.mem_cons_of_mem a hmem, ha'⟩
      | ok rest =>
        rw [hfirst, hrest] at h
        cases h

/-- The item of a row, which is read without regard to the other rows. -/
def PageQuery.item? (q : PageQuery α) (cells : Cells q.columns) : Option α :=
  (decodeRow q.columns cells).toOption.bind fun row => (q.read row).toOption

/-- What becomes of the rows of a reply. -/
def PageQuery.page (q : PageQuery α) (control : PageControl) (rows : List (Cells q.columns)) :
    Except Fault (Page α) := do
  let decoded ← (rows.mapM (decodeRow q.columns)).mapError fun e =>
    DatabaseError.fault q.summary (.decode e)
  let items ← decoded.mapM q.read
  return ⟨items, control, none⟩

theorem PageQuery.item?_of_decodeRow {q : PageQuery α} {cells : Cells q.columns}
    {row : Row q.columns} (h : decodeRow q.columns cells = .ok row) :
    q.item? cells = (q.read row).toOption := by
  rw [item?, h]
  rfl

theorem isSome_item?_iff (c : Criteria) (control : PageControl)
    (cells : Cells (pageQuery c control).columns) :
    ((pageQuery c control).item? cells).isSome ↔ Fits _ cells ∧ HoldsWords c control cells := by
  cases h : decodeRow (pageQuery c control).columns cells with
  | error e =>
    have hunfit : ¬Fits _ cells := by
      intro hfits
      obtain ⟨row, hrow⟩ := (exists_decodeRow_iff _ cells).mpr hfits
      cases h.symm.trans hrow
    simp [PageQuery.item?, h, hunfit, Except.toOption]
  | ok row =>
    have hfits := (exists_decodeRow_iff _ cells).mp ⟨row, h⟩
    rw [PageQuery.item?_of_decodeRow h, isSome_read_iff, HoldsWords, and_iff_right hfits]
    simp only [text?_of_decodeRow _ h]

variable {q : PageQuery α} {control : PageControl} {rows : List (Cells q.columns)}

theorem page_eq_ok_iff {page : Page α} : q.page control rows = .ok page ↔
    rows.map q.item? = page.items.map some ∧ page.control = control ∧ page.total = none := by
  obtain ⟨items, control', total⟩ := page
  rw [PageQuery.page]
  cases hdecoded : rows.mapM (decodeRow q.columns) with
  | error e =>
    -- All rows are decoded before any of them is read, but either way one that fails has no item.
    obtain ⟨cells, hmem, hcells⟩ := exists_of_mapM_eq_error hdecoded
    have hnone : none ∈ rows.map q.item? :=
      List.mem_map.mpr ⟨cells, hmem, by simp [PageQuery.item?, hcells, Except.toOption]⟩
    refine iff_of_false (by simp [Except.mapError, bind, Except.bind]) ?_
    rintro ⟨hitems, -⟩
    simp [hitems] at hnone
  | ok decoded =>
    have hitems : rows.map q.item? = decoded.map fun row => (q.read row).toOption := by
      calc rows.map q.item?
          = (rows.map fun cells => (decodeRow q.columns cells).toOption).map
              (·.bind fun row => (q.read row).toOption) := by
            rw [List.map_map]
            rfl
        _ = decoded.map fun row => (q.read row).toOption := by
            rw [mapM_eq_ok_iff.mp hdecoded, List.map_map]
            rfl
    rw [hitems, ← mapM_eq_ok_iff]
    cases hread : decoded.mapM q.read <;>
      simp [Except.mapError, hread, bind, Except.bind, pure, Except.pure, eq_comm]

theorem kind_of_page_eq_error (hread : ∀ row e, q.read row = .error e → e.kind = .database)
    {e : Fault} (h : q.page control rows = .error e) : e.kind = .database := by
  rw [PageQuery.page] at h
  cases hdecoded : rows.mapM (decodeRow q.columns) with
  | error e' =>
    rw [hdecoded] at h
    cases h
    rfl
  | ok decoded =>
    cases hitems : decoded.mapM q.read with
    | error e' =>
      obtain ⟨row, -, hrow⟩ := exists_of_mapM_eq_error hitems
      have hsame : e' = e := by simpa [hdecoded, hitems, Except.mapError, bind, Except.bind] using h
      exact hread row e (hsame ▸ hrow)
    | ok items =>
      simp [hdecoded, hitems, Except.mapError, bind, Except.bind, pure, Except.pure] at h

variable {σ : Type} {server : Server σ} {s after : σ}

theorem talk_of_ok {x : Talk σ ε α} {f : α → Talk σ ε β} {a : α} (h : x s = (.ok a, after)) :
    (x >>= f) s = f a after := by
  show (ExceptT.bindCont f (x s).1) (x s).2 = f a after
  rw [h]
  rfl

theorem talk_of_error {x : Talk σ ε α} {f : α → Talk σ ε β} {e : ε}
    (h : x s = (.error e, after)) : (x >>= f) s = (.error e, after) := by
  show (ExceptT.bindCont f (x s).1) (x s).2 = (.error e, after)
  rw [h]
  rfl

theorem reporting_apply (summary : String) (talk : Talk σ DatabaseError α) :
    reporting summary talk s =
      ((talk s).1.mapError (DatabaseError.fault summary), (talk s).2) := rfl

theorem fetch_of_failed {message : String}
    (h : server.select q.columns q.statement s = (.error message, after)) :
    q.fetch server control s =
      (.error (DatabaseError.fault q.summary (.failed message)), after) := by
  have hcells : server.fetchCells q.columns q.statement s = (.error (.failed message), after) := by
    rw [Server.fetchCells, h]
  have hall : server.fetchAll q.columns q.statement s = (.error (.failed message), after) :=
    talk_of_error hcells
  apply talk_of_error
  rw [reporting_apply, hall]
  rfl

theorem fetch_of_rows (h : server.select q.columns q.statement s = (.ok rows, after)) :
    q.fetch server control s = (q.page control rows, after) := by
  have hcells : server.fetchCells q.columns q.statement s = (.ok rows, after) := by
    rw [Server.fetchCells, h]
  have hall : server.fetchAll q.columns q.statement s = (Server.decoded rows, after) :=
    talk_of_ok hcells
  have hreported : reporting q.summary (server.fetchAll q.columns q.statement) s =
      ((rows.mapM (decodeRow q.columns)).mapError fun e =>
        DatabaseError.fault q.summary (.decode e), after) := by
    rw [reporting_apply, hall, Server.decoded]
    cases rows.mapM (decodeRow q.columns) <;> rfl
  rw [PageQuery.page]
  cases hdecoded : rows.mapM (decodeRow q.columns) with
  | error e =>
    rw [hdecoded] at hreported
    exact talk_of_error hreported
  | ok decoded =>
    rw [hdecoded] at hreported
    refine (talk_of_ok hreported).trans ?_
    show _ = (decoded.mapM q.read >>= fun items => pure (Page.mk items control none), after)
    have hsettled : (settled (decoded.mapM q.read) : Talk σ Fault (List α)) after =
        (decoded.mapM q.read, after) := rfl
    cases hread : decoded.mapM q.read with
    | error e =>
      rw [hread] at hsettled
      exact talk_of_error hsettled
    | ok items =>
      rw [hread] at hsettled
      exact talk_of_ok hsettled

end Pages

section Faults

variable {α β : Type}

/-- What goes wrong with stored data is a fault of the database. -/
def FailsAsDatabase (x : Except Fault α) : Prop := ∀ e, x = .error e → e.kind = .database

theorem FailsAsDatabase.ok (a : α) : FailsAsDatabase (.ok a) := by
  rintro e ⟨⟩

theorem FailsAsDatabase.bind {x : Except Fault α} {f : α → Except Fault β}
    (hx : FailsAsDatabase x) (hf : ∀ a, FailsAsDatabase (f a)) : FailsAsDatabase (x >>= f) := by
  cases x with
  | error e => exact fun e' h => hx e' (by cases h; rfl)
  | ok a => exact hf a

theorem failsAsDatabase_readWord (what : String) (ofName : String → Option α) (value : String) :
    FailsAsDatabase (readWord what ofName value) := by
  intro e h
  unfold readWord at h
  split at h <;> cases h
  rfl

theorem failsAsDatabase_typeRef (id : Int32) (name plugin category : String)
    (version : Option String) : FailsAsDatabase (typeRef id name plugin category version) :=
  (failsAsDatabase_readWord _ _ _).bind fun _ => .ok _

theorem failsAsDatabase_read (c : Criteria) (control : PageControl)
    (row : Row (pageQuery c control).columns) :
    FailsAsDatabase ((pageQuery c control).read row) := by
  cases c with
  | inventorySummary => exact (failsAsDatabase_typeRef _ _ _ _ _).bind fun _ => .ok _
  | inventoryDetails f =>
    exact (failsAsDatabase_typeRef _ _ _ _ _).bind fun _ =>
      (failsAsDatabase_readWord _ _ _).bind fun _ => .ok _
  | driftCompliance f => exact (failsAsDatabase_typeRef _ _ _ _ _).bind fun _ => .ok _
  | suspectMetrics => exact .ok _
  | alertDefinitions | configurationHistory | recentAlerts f | recentOperations f | recentDrift f =>
    exact (failsAsDatabase_readWord _ _ _).bind fun _ => .ok _

end Faults

section Streams

variable {σ : Type} {server : Server σ} {c : Criteria}

/-- What the database replies to a request for a page: an item for each row that can be read. -/
def reply (server : Server σ) (c : Criteria) (control : PageControl) (s : σ) :
    Except String (List (Option c.Row)) × σ :=
  match server.select (pageQuery c control).columns (pageQuery c control).statement s with
  | (.ok rows, after) => (.ok (rows.map (pageQuery c control).item?), after)
  | (.error message, after) => (.error message, after)

/-- No page can be made of a reply if the statement failed or a row cannot be read. -/
def IsUnusable {α : Type} : Except String (List (Option α)) → Prop
  | .error _ => True
  | .ok rows => none ∈ rows

theorem exists_map_some {α : Type} {rows : List (Option α)} (h : none ∉ rows) :
    ∃ items : List α, rows = items.map some := by
  induction rows with
  | nil => exact ⟨[], rfl⟩
  | cons row rows ih =>
    obtain ⟨items, rfl⟩ := ih fun hmem => h (List.mem_cons_of_mem row hmem)
    cases row with
    | none => exact absurd List.mem_cons_self h
    | some a => exact ⟨a :: items, rfl⟩

theorem isUnusable_or_exists_items {α : Type} (answer : Except String (List (Option α))) :
    IsUnusable answer ∨ ∃ items : List α, answer = .ok (items.map some) := by
  cases answer with
  | error message => exact .inl trivial
  | ok rows =>
    by_cases h : none ∈ rows
    · exact .inl h
    · obtain ⟨items, rfl⟩ := exists_map_some h
      exact .inr ⟨items, rfl⟩

variable {control : PageControl} {s after : σ}

theorem reportSource_of_items {items : List c.Row}
    (h : reply server c control s = (.ok (items.map some), after)) :
    reportSource server c control s = (.ok ⟨items, control, none⟩, after) := by
  unfold reply at h
  split at h
  · rename_i rows after' hselect
    obtain ⟨hitems, rfl⟩ : rows.map (pageQuery c control).item? = items.map some ∧
        after' = after := by
      simpa using h
    have hpage : (pageQuery c control).page control rows = .ok ⟨items, control, none⟩ :=
      page_eq_ok_iff.mpr ⟨hitems, rfl, rfl⟩
    rw [reportSource, fetch_of_rows hselect, hpage]
  · cases h

theorem reportSource_of_unusable {answer : Except String (List (Option c.Row))}
    (h : reply server c control s = (answer, after)) (hunusable : IsUnusable answer) :
    ∃ e, e.kind = .database ∧ reportSource server c control s = (.error e, after) := by
  unfold reply at h
  split at h
  · rename_i rows after' hselect
    obtain ⟨rfl, rfl⟩ := Prod.mk.inj h
    cases hpage : (pageQuery c control).page control rows with
    | error e =>
      refine ⟨e, kind_of_page_eq_error (failsAsDatabase_read c control) hpage, ?_⟩
      rw [reportSource, fetch_of_rows hselect, hpage]
    | ok page =>
      have hnone : none ∈ rows.map (pageQuery c control).item? := hunusable
      rw [(page_eq_ok_iff.mp hpage).1] at hnone
      simp at hnone
  · rename_i message after' hselect
    obtain ⟨-, rfl⟩ := Prod.mk.inj h
    exact ⟨_, rfl, fetch_of_failed hselect⟩

/-- Replies to requests for one page after the other, each of which makes a page that is full. -/
inductive Replies (server : Server σ) (c : Criteria) :
    PageControl → σ → List (List c.Row) → PageControl → σ → Prop
  | start (control : PageControl) (s : σ) : Replies server c control s [] control s
  | page {control next : PageControl} {s between after : σ} {items : List c.Row}
      {pages : List (List c.Row)} (h : reply server c control s = (.ok (items.map some), between))
      (hfull : control.size ≤ items.length)
      (rest : Replies server c control.next between pages next after) :
      Replies server c control s (items :: pages) next after

namespace Replies

variable {next : PageControl} {between : σ} {pages : List (List c.Row)}

/-- The first reply makes a page, if there is one before the last. -/
theorem cases_first (h : Replies server c control s pages next between) :
    pages = [] ∧ next = control ∧ between = s ∨
      pages ≠ [] ∧ ∃ (items : List c.Row) (after : σ),
        reply server c control s = (.ok (items.map some), after) := by
  cases h with
  | start => exact .inl ⟨rfl, rfl, rfl⟩
  | page h => exact .inr ⟨List.cons_ne_nil _ _, _, _, h⟩

/-- The first reply makes a page, if the one behind the full pages does. -/
theorem exists_first (h : Replies server c control s pages next between) {items : List c.Row}
    (hlast : reply server c next between = (.ok (items.map some), after)) :
    ∃ (items : List c.Row) (after : σ),
      reply server c control s = (.ok (items.map some), after) := by
  cases h with
  | start => exact ⟨items, after, hlast⟩
  | page h => exact ⟨_, _, h⟩

theorem not_isLast {items : List c.Row} (hfull : control.size ≤ items.length) :
    ¬(Page.mk items control none).isLast control := by
  simpa [Page.isLast] using hfull

/-- The rows from the first page on: those of the full pages, then those from the next one on. -/
theorem rowsAt_eq (h : Replies server c control s pages next between) {rows : List c.Row}
    {ending : Ending}
    (hrows : (reportSource server c).rowsAt next between = ⟨rows, ending, after⟩)
    (hending : ending ≠ .endless) :
    (reportSource server c).rowsAt control s = ⟨pages.flatten ++ rows, ending, after⟩ := by
  induction h with
  | start => exact hrows
  | @page control next s between' between items pages h hfull rest ih =>
    have hrest := ih hrows
    rw [Fetch.rowsAt_of_ok _ (reportSource_of_items h),
      Fetch.rowsFrom_of_more _ (not_isLast hfull) (by simp [hrest, hending]), hrest, Run.behind,
      List.flatten_cons, List.append_assoc]

/-- Of more replies, those behind the first ones are replies as well. -/
theorem drop (h : Replies server c control s pages next between) {pages' : List (List c.Row)}
    {next' : PageControl} {between' : σ} (h' : Replies server c control s pages' next' between')
    (hlength : pages.length ≤ pages'.length) :
    Replies server c next between (pages'.drop pages.length) next' between' := by
  induction h generalizing pages' with
  | start => exact h'
  | page hreply _ _ ih =>
    cases h' with
    | start => simp at hlength
    | page hreply' _ rest' =>
      obtain ⟨-, rfl⟩ := Prod.mk.inj (hreply.symm.trans hreply')
      exact ih rest' (by simpa using hlength)

theorem number_eq (h : Replies server c control s pages next between)
    (hnumber : control.number ≤ PageControl.lastNumber) :
    next.number = min (control.number + pages.length) PageControl.lastNumber := by
  induction h with
  | start => simpa using hnumber
  | @page control _ _ _ _ _ _ _ _ _ ih =>
    have hnext : control.next.number = min (control.number + 1) PageControl.lastNumber := rfl
    rw [ih (by omega), hnext, List.length_cons]
    omega

/-- The last number is asked for over and over. -/
theorem neverLast (hnext : control.next = control)
    (h : ∀ n, ∃ pages next between, pages.length = n ∧
      Replies server c control s pages next between) :
    (reportSource server c).NeverLast control s := by
  intro n
  obtain ⟨pages, next, between, hlength, hreplies⟩ := h (n + 1)
  clear h
  induction n generalizing s pages with
  | zero =>
    cases hreplies with
    | start => simp at hlength
    | page hreply hfull _ =>
      exact ⟨_, congrArg Prod.fst (reportSource_of_items hreply), not_isLast hfull⟩
  | succ n ih =>
    cases hreplies with
    | start => simp at hlength
    | page hreply _ rest =>
      rw [Fetch.stateAfter, reportSource_of_items hreply]
      exact ih _ (by simpa using hlength) (hnext ▸ rest)

/-- The rows are followed up to the first page with the last number. -/
theorem rowsAt_of_neverLast (h : Replies server c control s pages next between)
    (hnumber : control.number + pages.length = PageControl.lastNumber + 1)
    (hcontrol : control.number ≤ PageControl.lastNumber)
    (hnever : (reportSource server c).NeverLast next between) :
    (reportSource server c).rowsAt control s = ⟨pages.flatten, .endless, between⟩ := by
  induction h with
  | start => simp at hnumber; omega
  | @page control next s between' between items pages h hfull rest ih =>
    by_cases hlt : control.number < PageControl.lastNumber
    · have hnext := PageControl.number_next hlt
      rw [List.length_cons] at hnumber
      rw [Fetch.rowsAt_of_ok _ (reportSource_of_items h),
        Fetch.rowsFrom_of_lt _ (not_isLast hfull) hlt, ih (by omega) (by omega) hnever]
      rfl
    · obtain rfl : pages = [] := List.length_eq_zero_iff.mp (by simp at hnumber; omega)
      cases rest
      have hreads := Fetch.Reads.endless (reportSource_of_items h) (not_isLast hfull) hlt hnever
      simpa using Fetch.rowsAt_of_reads _ hreads

end Replies

theorem rowsAt_of_error {e : Fault} (h : reportSource server c control s = (.error e, after)) :
    (reportSource server c).rowsAt control s = ⟨[], .failed e, after⟩ := by
  rw [Fetch.rowsAt, h]

theorem rowsAt_of_short {items : List c.Row}
    (h : reply server c control s = (.ok (items.map some), after))
    (hshort : items.length < control.size) :
    (reportSource server c).rowsAt control s = ⟨items, .complete, after⟩ := by
  have hlast : (Page.mk items control none).isLast control := by simpa [Page.isLast] using hshort
  rw [Fetch.rowsAt_of_ok _ (reportSource_of_items h), Fetch.rowsFrom, if_pos hlast]

variable {format : ReportFormat} {base : LinkBase} {options : StreamOptions}

theorem startReport_of_items {items : List c.Row}
    (h : reply server c (.first options.pageSize) s = (.ok (items.map some), after))
    {rows : List c.Row} {ending : Ending} {final : σ}
    (hrows : (reportSource server c).rowsAt (.first options.pageSize) s = ⟨rows, ending, final⟩) :
    startReport (reportSource server) c format base options s =
      (.ok (.of ((c.writer format base).chunks rows ending) ending), final) := by
  rw [startReport_eq_report, Writer.report_of_ok _ (reportSource_of_items h), hrows,
    Writer.output_eq]

/-- What a report over the replies of a database comes to, by the first of them that is not a page
which is full. -/
structure StreamsReplies (server : Server σ) (c : Criteria) (w : Writer c.Row)
    (first : PageControl) (s : σ) (result : Except Fault Output × σ) : Prop where
  unusable : ∀ pages control between answer after, Replies server c first s pages control between →
    reply server c control between = (answer, after) → IsUnusable answer →
      ∃ e, e.kind = .database ∧ result = (if pages.isEmpty then .error e
        else .ok (.of (w.opening :: pages.flatten.map w.chunk) (.failed e)), after)
  short : ∀ pages control between (items : List c.Row) after,
    Replies server c first s pages control between →
    reply server c control between = (.ok (items.map some), after) → items.length < control.size →
      result =
        (.ok (.of (w.opening :: (pages.flatten ++ items).map w.chunk ++ w.foot) .complete), after)
  /-- If all pages are full, the one with the last number is asked for over and over. The rows are
  followed up to its first reply. -/
  endless : (∀ n, ∃ pages control between, pages.length = n ∧
      Replies server c first s pages control between) →
    ∀ pages control between, Replies server c first s pages control between →
      pages.length = PageControl.lastNumber + 1 →
        result = (.ok (.of (w.opening :: pages.flatten.map w.chunk) .endless), between)
  /-- There is no other way. -/
  covers : (∃ pages control between, Replies server c first s pages control between ∧
      (IsUnusable (reply server c control between).1 ∨
        ∃ items : List c.Row, (reply server c control between).1 = .ok (items.map some) ∧
          items.length < control.size)) ∨
    ∀ n, ∃ pages control between, pages.length = n ∧ Replies server c first s pages control between

/-- One reply after the other makes a page that is full, or else one of them is the first that does
not. -/
theorem exists_replies (server : Server σ) (c : Criteria) (control : PageControl) (s : σ)
    (n : Nat) :
    (∃ pages next between, Replies server c control s pages next between ∧
      (IsUnusable (reply server c next between).1 ∨
        ∃ items : List c.Row, (reply server c next between).1 = .ok (items.map some) ∧
          items.length < next.size)) ∨
    ∃ pages next between, pages.length = n ∧ Replies server c control s pages next between := by
  induction n generalizing control s with
  | zero => exact .inr ⟨[], control, s, rfl, .start control s⟩
  | succ n ih =>
    rcases isUnusable_or_exists_items (reply server c control s).1 with hunusable | ⟨items, hitems⟩
    · exact .inl ⟨[], control, s, .start control s, .inl hunusable⟩
    · by_cases hshort : items.length < control.size
      · exact .inl ⟨[], control, s, .start control s, .inr ⟨items, hitems, hshort⟩⟩
      · have hreply : reply server c control s =
            (.ok (items.map some), (reply server c control s).2) := Prod.ext hitems rfl
        have hfull := Nat.not_lt.mp hshort
        rcases ih control.next (reply server c control s).2 with
          ⟨pages, next, between, hrest, hend⟩ | ⟨pages, next, between, hlength, hrest⟩
        · exact .inl ⟨items :: pages, next, between, .page hreply hfull hrest, hend⟩
        · exact .inr ⟨items :: pages, next, between, congrArg (· + 1) hlength,
            .page hreply hfull hrest⟩

theorem streamsReplies (server : Server σ) (c : Criteria) (format : ReportFormat) (base : LinkBase)
    (options : StreamOptions) (s : σ) :
    StreamsReplies server c (c.writer format base) (.first options.pageSize) s
      (startReport (reportSource server) c format base options s) where
  unusable pages control between answer after hreplies hreply hunusable := by
    obtain ⟨e, hkind, herror⟩ := reportSource_of_unusable hreply hunusable
    refine ⟨e, hkind, ?_⟩
    -- Without a first page there is no report yet that could break off.
    rcases hreplies.cases_first with ⟨rfl, rfl, rfl⟩ | ⟨hpages, items, _, hfirst⟩
    · exact Writer.report_of_error _ herror
    · rw [startReport_of_items hfirst (hreplies.rowsAt_eq (rowsAt_of_error herror) (by simp))]
      simp [hpages, Writer.chunks, Writer.closing]
  short pages control between items after hreplies hreply hshort := by
    obtain ⟨_, _, hfirst⟩ := hreplies.exists_first hreply
    exact startReport_of_items hfirst (hreplies.rowsAt_eq (rowsAt_of_short hreply hshort) (by simp))
  endless hall pages control between hreplies hlength := by
    have hfirst : (PageControl.first options.pageSize).number = 0 := rfl
    have hnumber := hreplies.number_eq (Nat.zero_le _)
    have hfixed : control.next = control := by
      rw [PageControl.next, PageControl.mk.injEq]
      exact ⟨by omega, rfl⟩
    have hnever := Replies.neverLast (s := between) hfixed fun n => by
      obtain ⟨pages', next, final, hlength', hreplies'⟩ := hall (pages.length + n)
      exact ⟨_, next, final, by simp [hlength'], hreplies.drop hreplies' (by omega)⟩
    have hrows := hreplies.rowsAt_of_neverLast (by omega) (by omega) hnever
    rcases hreplies.cases_first with ⟨rfl, -, -⟩ | ⟨-, items, _, hitems⟩
    · simp at hlength
    · rw [startReport_of_items hitems hrows, Writer.chunks, Writer.closing, List.append_nil]
  covers := by
    by_contra hnone
    rw [not_or] at hnone
    exact hnone.2 fun n =>
      (exists_replies server c (.first options.pageSize) s n).resolve_left hnone.1

end Streams

/-- A page can be made of rows if each of them can be used and holds known words. -/
theorem exists_page_iff {c : Criteria} {control : PageControl}
    {rows : List (Cells (pageQuery c control).columns)} :
    (∃ page, (pageQuery c control).page control rows = .ok page) ↔
      ∀ cells ∈ rows, Fits _ cells ∧ HoldsWords c control cells := by
  constructor
  · rintro ⟨page, hpage⟩ cells hmem
    have hitem : (pageQuery c control).item? cells ∈ page.items.map some :=
      (page_eq_ok_iff.mp hpage).1 ▸ List.mem_map_of_mem hmem
    obtain ⟨item, -, hsome⟩ := List.mem_map.mp hitem
    exact (isSome_item?_iff c control cells).mp (hsome ▸ rfl)
  · intro hrows
    have hread : none ∉ rows.map (pageQuery c control).item? := by
      intro hnone
      obtain ⟨cells, hmem, hitem⟩ := List.mem_map.mp hnone
      have hsome := (isSome_item?_iff c control cells).mpr (hrows cells hmem)
      simp [hitem] at hsome
    obtain ⟨items, hitems⟩ := exists_map_some hread
    exact ⟨⟨items, control, none⟩, page_eq_ok_iff.mpr ⟨hitems, rfl, rfl⟩⟩

/-- A page of a stored report is there exactly if every row of the reply can be used and holds known
words. It has one item for each row, read from this row alone and in the order of the reply, and no
number of all rows. Otherwise there is a fault of the database. So a report over any replies has the
rows of the full pages and of the short one behind them, or ends in a fault behind the full pages if
no page can be made of the next reply. -/
theorem stored_pages_whole {σ : Type} (server : Server σ) (c : Criteria) :
    (∀ control s rows after,
      server.select (pageQuery c control).columns (pageQuery c control).statement s =
          (.ok rows, after) →
        ((∃ page, reportSource server c control s = (.ok page, after)) ↔
          ∀ cells ∈ rows, Fits _ cells ∧ HoldsWords c control cells) ∧
        (∀ page final, reportSource server c control s = (.ok page, final) →
          rows.map (pageQuery c control).item? = page.items.map some ∧
            page.control = control ∧ page.total = none ∧ final = after) ∧
        ∀ e final, reportSource server c control s = (.error e, final) →
          e.kind = .database ∧ final = after) ∧
      (∀ control s message after,
        server.select (pageQuery c control).columns (pageQuery c control).statement s =
            (.error message, after) →
          ∃ e, e.kind = .database ∧ reportSource server c control s = (.error e, after)) ∧
      ∀ format base options s, StreamsReplies server c (c.writer format base)
        (.first options.pageSize) s
        (startReport (reportSource server) c format base options s) := by
  refine ⟨fun control s rows after hselect => ?_, fun control s message after hselect => ?_,
    streamsReplies server c⟩
  · have hfetch : reportSource server c control s =
        ((pageQuery c control).page control rows, after) := fetch_of_rows hselect
    refine ⟨?_, fun page final hpage => ?_, fun e final herror => ?_⟩
    · rw [hfetch, ← exists_page_iff]
      simp
    · obtain ⟨hmade, rfl⟩ := Prod.mk.inj (hfetch.symm.trans hpage)
      obtain ⟨hitems, hcontrol, htotal⟩ := page_eq_ok_iff.mp hmade
      exact ⟨hitems, hcontrol, htotal, rfl⟩
    · obtain ⟨hmade, rfl⟩ := Prod.mk.inj (hfetch.symm.trans herror)
      exact ⟨kind_of_page_eq_error (failsAsDatabase_read c control) hmade, rfl⟩
  · exact ⟨_, rfl, fetch_of_failed hselect⟩

namespace LowSpace

def criteria : Criteria := .recentAlerts ⟨[], ⟨none, none⟩⟩

def query (control : PageControl) : PageQuery criteria.Row := pageQuery criteria control

def conditions (condition : String) : Json :=
  .list [.object [("category", .text "resource_configuration")],
    .object [("category", .text condition)]]

/-- An alert in a reply. -/
def alert (priority condition : String) : Json :=
  .object [("id", .integer 1), ("created_at", .integer 0), ("definition_name", .text "Low space"),
    ("conditions", conditions condition), ("priority", .text priority),
    ("resource_id", .integer 7), ("resource_name", .text "node1")]

def cells (control : PageControl) (priority condition : String) : Cells (query control).columns :=
  (some (1 : Int32), some Instant.epoch, some "Low space", some (conditions condition),
    some priority, (none : Option String), (none : Option Int32), (none : Option Bool),
    some (7 : Int32), some "node1", (none : Option String), ())

def row (priority : AlertPriority) : AlertRow :=
  ⟨1, .epoch, "Low space", [.resourceConfiguration, .resourceConfiguration], priority, none,
    ⟨⟨7⟩, "node1", none⟩, .resource⟩

section Reading

variable (control : PageControl) (priority condition : String)

theorem select_alert (rest : List Reply) (log : List Command) (misfit : Bool) :
    Rehearsal.server.select (query control).columns (query control).statement
        ⟨.rows [alert priority condition] :: rest, log, misfit⟩ =
      (.ok [cells control priority condition],
        ⟨rest, log ++ [.statement (query control).statement], misfit⟩) := by
  rfl

theorem reply_alert (rest : List Reply) (log : List Command) (misfit : Bool) :
    reply Rehearsal.server criteria control
        ⟨.rows [alert priority condition] :: rest, log, misfit⟩ =
      (.ok [(query control).item? (cells control priority condition)],
        ⟨rest, log ++ [.statement (query control).statement], misfit⟩) := by
  rfl

theorem decodeRow_cells : decodeRow (query control).columns
      (cells control priority "resource_configuration") =
    .ok ((1 : Int32), Instant.epoch, "Low space",
      [AlertCondition.resourceConfiguration, .resourceConfiguration], priority,
      (none : Option String), (none : Option Int32), (none : Option Bool), (7 : Int32), "node1",
      (none : Option String), ()) := by
  rfl

theorem item?_cells : (query control).item? (cells control priority "resource_configuration") =
    (AlertPriority.ofTyped? priority).map row := by
  rw [PageQuery.item?_of_decodeRow (decodeRow_cells control priority)]
  refine toOption_bind_pure.trans ?_
  rw [toOption_readWord]
  rfl

theorem holdsWords_iff : HoldsWords criteria control (cells control priority condition) ↔
    Text.asciiUpper (Text.trim priority) ∈ ["HIGH", "MEDIUM", "LOW"] := by
  unfold HoldsWords
  show (∀ w ∈ [WordColumn.loose "priority" ["HIGH", "MEDIUM", "LOW"]], _) ↔ _
  rw [List.forall_mem_singleton]
  exact WordColumn.knows_loose_iff priority rfl

theorem fits_iff : Fits (query control).columns (cells control priority condition) ↔
    (ColumnType.conditions.read? (conditions condition)).isSome := by
  constructor
  · rintro ⟨-, -, -, hconditions, -⟩
    exact hconditions
  · intro hconditions
    exact ⟨rfl, rfl, rfl, hconditions, rfl, rfl, rfl, rfl, rfl, rfl, rfl, trivial⟩

end Reading

/-- An alert that makes a page, and behind it one with a priority that nobody knows. -/
def replies : List Reply :=
  [.rows [alert "high" "resource_configuration"], .rows [alert "URGENT" "resource_configuration"]]

theorem stored_pages_whole_low_space :
    (∃ page after, reportSource Rehearsal.server criteria (.first 1) (.ofReplies replies) =
      (.ok page, after)) ∧
    ∃ e after, e.kind = .database ∧
      startReport (reportSource Rehearsal.server) criteria .csv (.ofUrl "") ⟨1, 1⟩
          (.ofReplies replies) =
        (.ok (.of [(criteria.writer .csv (.ofUrl "")).opening,
          (criteria.writer .csv (.ofUrl "")).chunk (row .high)] (.failed e)), after) := by
  obtain ⟨hpages, -, hstreams⟩ := stored_pages_whole Rehearsal.server criteria
  obtain ⟨hpage, -, -⟩ := hpages _ _ _ _
    (select_alert (.first 1) "high" "resource_configuration" replies.tail [] false)
  have hhigh : AlertPriority.ofTyped? "high" = some .high := by decide_cbv
  have hurgent : AlertPriority.ofTyped? "URGENT" = none := by decide_cbv
  obtain ⟨page, hpage⟩ := hpage.mpr fun cells' hmem => by
    obtain rfl := List.mem_singleton.mp hmem
    exact ⟨(fits_iff _ _ _).mpr rfl, (holdsWords_iff _ _ _).mpr (by decide_cbv)⟩
  have hfirst := reply_alert (.first 1) "high" "resource_configuration" replies.tail [] false
  rw [item?_cells, hhigh] at hfirst
  have hreplies : Replies Rehearsal.server criteria (.first 1) (.ofReplies replies) [[row .high]]
      (PageControl.first 1).next _ := .page hfirst (by decide) (.start _ _)
  have hsecond := reply_alert (PageControl.first 1).next "URGENT" "resource_configuration" []
    [.statement (query (.first 1)).statement] false
  rw [item?_cells, hurgent] at hsecond
  obtain ⟨e, hkind, hreport⟩ := (hstreams .csv (.ofUrl "") ⟨1, 1⟩ _).unusable _ _ _ _ _ hreplies
    hsecond List.mem_cons_self
  exact ⟨⟨page, _, hpage⟩, e, _, hkind, hreport⟩

theorem read?_renamed : ColumnType.conditions.read? (conditions "resource_renamed") = none := by
  have hreader : AlertCondition.fieldReader? "resource_renamed" = none := by
    unfold AlertCondition.fieldReader?
    rfl
  have hcondition : AlertCondition.ofJson? (.object [("category", .text "resource_renamed")]) =
      none := by
    simp [AlertCondition.ofJson?, Json.untag?, Json.toText?, hreader]
  simp [ColumnType.read?, conditions, Json.toList?, hcondition]

theorem exists_error_of_renamed (control : PageControl) (priority : String) :
    ∃ e, (query control).page control [cells control priority "resource_renamed"] = .error e := by
  have hunfit : ¬Fits (query control).columns (cells control priority "resource_renamed") := by
    rw [fits_iff, read?_renamed]
    decide
  cases hpage : (query control).page control [cells control priority "resource_renamed"] with
  | error e => exact ⟨e, rfl⟩
  | ok page => exact absurd (exists_page_iff.mp ⟨page, hpage⟩ _ List.mem_cons_self).1 hunfit

/-- The only row has a known priority, and there is no page, as a condition cannot be read. -/
theorem known_priority_refused : ∃ rows after e,
    Rehearsal.server.select (query (.first 200)).columns (query (.first 200)).statement
        (.ofReplies [.rows [alert "HIGH" "resource_renamed"]]) = (.ok rows, after) ∧
      (∀ row ∈ rows, HoldsWords criteria (.first 200) row) ∧
      reportSource Rehearsal.server criteria (.first 200)
        (.ofReplies [.rows [alert "HIGH" "resource_renamed"]]) = (.error e, after) := by
  have hselect := select_alert (.first 200) "HIGH" "resource_renamed" [] [] false
  obtain ⟨e, hpage⟩ := exists_error_of_renamed (.first 200) "HIGH"
  refine ⟨_, _, e, hselect, fun row hmem => ?_, ?_⟩
  · obtain rfl := List.mem_singleton.mp hmem
    exact (holdsWords_iff _ _ _).mpr (by decide_cbv)
  · exact (fetch_of_rows hselect).trans (congrArg (fun page => (page, _)) hpage)

end LowSpace

end FleetConsole.Database
