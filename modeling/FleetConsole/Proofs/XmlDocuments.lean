import FleetConsole.Proofs.Entities
import FleetConsole.Proofs.InventoryReports

/-! Reading the documents of reports. A reader that knows no names in advance finds one element for
each row and in it one for each field, whatever the texts of the fields are. -/
namespace FleetConsole.Report

namespace Xml

/-- A name of elements: letters only. -/
def IsName (s : String) : Prop := s.toList ≠ [] ∧ s.toList.all Char.isAlpha = true

instance (s : String) : Decidable (IsName s) := inferInstanceAs (Decidable (_ ∧ _))

/-- The element of a row: its name, and the name and text of each field. -/
structure RowElement where
  name : String
  fields : List (String × String)
  deriving DecidableEq, Repr

structure Document where
  root : String
  rows : List RowElement
  deriving DecidableEq, Repr

section Reading

/-- What follows a word. -/
def behind? (word : String) (cs : List Char) : Option (List Char) := cs.dropPrefix? word.toList

/-- A name, and what follows it. -/
def name? (cs : List Char) : Option (String × List Char) :=
  if cs.takeWhile Char.isAlpha = [] then none
  else some (String.ofList (cs.takeWhile Char.isAlpha), cs.dropWhile Char.isAlpha)

/-- What can be read one after the other, and the rest. What is read has to be shorter each time. -/
def many {α : Type} (read : List Char → Option (α × List Char)) (cs : List Char) :
    List α × List Char :=
  match read cs with
  | none => ([], cs)
  | some (a, rest) =>
    if rest.length < cs.length then ((a :: (many read rest).1), (many read rest).2) else ([], cs)
termination_by cs.length

/-- The text of a field up to its closing tag. -/
def text? (tag : String) (cs : List Char) : Option (String × List Char) := do
  let text ← Text.unescape? .named none (cs.takeWhile (· ≠ '<'))
  let rest ← behind? ("</" ++ tag ++ ">") (cs.dropWhile (· ≠ '<'))
  return (String.ofList text, rest)

/-- A field: an empty tag, or a tag with a text behind it and a closing tag. -/
def field? (cs : List Char) : Option ((String × String) × List Char) := do
  let (tag, cs) ← name? (← behind? "<" cs)
  match behind? "/>" cs with
  | some rest => some ((tag, ""), rest)
  | none => do
    let (text, rest) ← text? tag (← behind? ">" cs)
    return ((tag, text), rest)

/-- A row on a line of its own. -/
def row? (cs : List Char) : Option (RowElement × List Char) := do
  let (name, cs) ← name? (← behind? "  <" cs)
  let (fields, cs) := many field? (← behind? ">" cs)
  let rest ← behind? ("</" ++ name ++ ">\n") cs
  return (⟨name, fields⟩, rest)

/-- A document with nothing before or behind it. -/
def read? (text : String) : Option Document := do
  let cs ← behind? "<?xml version=\"1.0\" encoding=\"UTF-8\"?>\n" text.toList
  let (root, cs) ← name? (← behind? "<" cs)
  let (rows, cs) := many row? (← behind? ">\n" cs)
  let rest ← behind? ("</" ++ root ++ ">\n") cs
  if rest = [] then return ⟨root, rows⟩ else none

end Reading

section Written

theorem behind?_append (word : String) (rest : List Char) :
    behind? word (word.toList ++ rest) = some rest :=
  List.dropPrefix?_eq_some_iff.mpr ⟨word.toList, rfl, by simp⟩

/-- Letters of a class are read up to the first other one. -/
theorem span_append {p : Char → Bool} {cs rest : List Char} (hcs : ∀ c ∈ cs, p c = true)
    (hrest : ∀ c ∈ rest.head?, p c = false) :
    (cs ++ rest).takeWhile p = cs ∧ (cs ++ rest).dropWhile p = rest := by
  rw [List.takeWhile_append_of_pos hcs, List.dropWhile_append_of_pos hcs]
  cases rest with
  | nil => simp
  | cons c rest => simp [hrest c rfl]

theorem name?_append {s : String} (h : IsName s) {rest : List Char}
    (hrest : ∀ c ∈ rest.head?, c.isAlpha = false) : name? (s.toList ++ rest) = some (s, rest) := by
  have hletters : ∀ c ∈ s.toList, c.isAlpha = true := List.all_eq_true.mp h.2
  obtain ⟨hname, hbehind⟩ := span_append hletters hrest
  rw [name?, hname, hbehind, if_neg h.1, String.ofList_toList]

/-- Everything written is read, up to what cannot be. -/
theorem many_flatMap {α β : Type} {read : List Char → Option (β × List Char)}
    {write : α → List Char} {item : α → β} {items : List α} {rest : List Char}
    (hread : ∀ a ∈ items, ∀ rest, read (write a ++ rest) = some (item a, rest))
    (hwrite : ∀ a ∈ items, write a ≠ []) (hrest : read rest = none) :
    many read (items.flatMap write ++ rest) = (items.map item, rest) := by
  induction items with
  | nil =>
    rw [many]
    simp [hrest]
  | cons a items ih =>
    rw [List.forall_mem_cons] at hread hwrite
    have hshorter : (items.flatMap write ++ rest).length <
        (write a ++ (items.flatMap write ++ rest)).length := by
      have hpos := List.length_pos_iff.mpr hwrite.1
      simp only [List.length_append]
      omega
    rw [many, List.flatMap_cons, List.append_assoc, hread.1]
    simp only [ih hread.2 hwrite.2]
    rw [if_pos hshorter, List.map_cons]

theorem toList_concat (parts : List String) :
    (concat parts).toList = parts.flatMap String.toList := by
  induction parts with
  | nil => rfl
  | cons s parts ih => rw [concat_cons, String.toList_append, ih, List.flatMap_cons]

/-- The text of a field has no letter that opens or closes a tag. -/
theorem notMem_escapeXml (value : String) :
    '<' ∉ (Text.escapeXml value).toList ∧ '>' ∉ (Text.escapeXml value).toList := by
  rw [Text.toList_escapeXml]
  exact ⟨Text.notMem_markupChars _ (by decide) (by decide) _,
    Text.notMem_markupChars _ (by decide) (by decide) _⟩

theorem text?_append (tag value : String) (rest : List Char) :
    text? tag ((Text.escapeXml value).toList ++ (("</" ++ tag ++ ">").toList ++ rest)) =
      some (value, rest) := by
  have hplain : ∀ c ∈ (Text.escapeXml value).toList, decide (c ≠ '<') = true := by
    intro c hc
    have hopening : c ≠ '<' := fun h => (notMem_escapeXml value).1 (h ▸ hc)
    exact decide_eq_true hopening
  have hstop : ∀ c ∈ (("</" ++ tag ++ ">").toList ++ rest).head?, decide (c ≠ '<') = false := by
    simp
  obtain ⟨htext, hclosing⟩ := span_append hplain hstop
  rw [text?, htext, hclosing, behind?_append, Text.toList_escapeXml, Text.unescape?_markupChars]
  simp

theorem field?_append {tag : String} (h : IsName tag) (value : String) (rest : List Char) :
    field? ((fieldElement tag value).toList ++ rest) = some ((tag, value), rest) := by
  by_cases hempty : value = ""
  · have htext : (fieldElement tag value).toList ++ rest =
        "<".toList ++ (tag.toList ++ ("/>".toList ++ rest)) := by
      simp [fieldElement, hempty]
    rw [htext, field?, behind?_append]
    simp only [Option.bind_eq_bind, Option.bind_some]
    rw [name?_append h (by simp)]
    simp only [Option.bind_some, behind?_append, hempty]
  · have htext : (fieldElement tag value).toList ++ rest =
        "<".toList ++ (tag.toList ++ (">".toList ++ ((Text.escapeXml value).toList ++
          (("</" ++ tag ++ ">").toList ++ rest)))) := by
      simp [fieldElement, hempty]
    have hopen (cs : List Char) : behind? "/>" (">".toList ++ cs) = none := by
      simp [behind?, List.dropPrefix?]
    rw [htext, field?, behind?_append]
    simp only [Option.bind_eq_bind, Option.bind_some]
    rw [name?_append h (by simp)]
    simp only [Option.bind_some, behind?_append, hopen, text?_append]
    rfl

/-- A field does not begin with a closing tag, so that the fields of a row end in front of it. -/
theorem field?_closing (rest : List Char) : field? ("</".toList ++ rest) = none := by
  have hopened : behind? "<" ("</".toList ++ rest) = some ('/' :: rest) := behind?_append "<" _
  have hname : name? ('/' :: rest) = none := by simp [name?]
  rw [field?, hopened]
  simp [hname]

theorem toList_fieldElement_ne_nil (tag value : String) :
    (fieldElement tag value).toList ≠ [] := by
  by_cases hempty : value = "" <;> simp [fieldElement, hempty]

theorem row?_append {name : String} (hname : IsName name) {tags : List String}
    (htags : ∀ tag ∈ tags, IsName tag) (fields : List String) (rest : List Char) :
    row? ((element name tags fields).toList ++ rest) =
      some (⟨name, tags.zip fields⟩, rest) := by
  have htext : (element name tags fields).toList ++ rest =
      "  <".toList ++ (name.toList ++ (">".toList ++
        ((tags.zip fields).flatMap (fun field => (fieldElement field.1 field.2).toList) ++
          (("</" ++ name ++ ">\n").toList ++ rest)))) := by
    have hzip : List.zipWith fieldElement tags fields =
        (tags.zip fields).map fun field => fieldElement field.1 field.2 :=
      List.map_uncurry_zip_eq_zipWith.symm
    simp [element, hzip, toList_concat, List.flatMap_map]
  have hfields : many field?
      ((tags.zip fields).flatMap (fun field => (fieldElement field.1 field.2).toList) ++
        (("</" ++ name ++ ">\n").toList ++ rest)) =
      ((tags.zip fields).map id, ("</" ++ name ++ ">\n").toList ++ rest) := by
    refine many_flatMap (fun field hfield rest => ?_)
      (fun field _ => toList_fieldElement_ne_nil _ _) ?_
    · exact field?_append (htags _ (List.of_mem_zip hfield).1) field.2 rest
    · rw [String.toList_append, String.toList_append, List.append_assoc, List.append_assoc]
      exact field?_closing _
  rw [htext, row?, behind?_append]
  simp only [Option.bind_eq_bind, Option.bind_some]
  rw [name?_append hname (by simp)]
  simp only [Option.bind_some, behind?_append, hfields, List.map_id]
  rfl

/-- What does not begin with two blanks is no row. -/
theorem row?_eq_none {rest : List Char} (h : rest.head? ≠ some ' ') : row? rest = none := by
  have hblank : behind? "  <" rest = none := by
    cases rest with
    | nil => rfl
    | cons c rest =>
      have hfirst : c ≠ ' ' := fun hc => h (hc ▸ rfl)
      simp [behind?, List.dropPrefix?, hfirst]
  rw [row?, hblank]
  rfl

theorem concat_append (front rest : List String) :
    concat (front ++ rest) = concat front ++ concat rest := by
  simp [← String.toList_inj, toList_concat]

/-- A document is read up to its closing. What stands there decides whether it is one. -/
theorem read?_opened {root name : String} (hroot : IsName root) (hname : IsName name)
    {tags : List String} (htags : ∀ tag ∈ tags, IsName tag) (lists : List (List String))
    (closing : String) (hclosing : closing.toList.head? ≠ some ' ') :
    read? (concat (openDocument root :: lists.map (element name tags)) ++ closing) =
      (behind? (closeDocument root) closing.toList).bind fun rest =>
        if rest = [] then some ⟨root, lists.map fun fields => ⟨name, tags.zip fields⟩⟩ else none := by
  have htext : (concat (openDocument root :: lists.map (element name tags)) ++ closing).toList =
      "<?xml version=\"1.0\" encoding=\"UTF-8\"?>\n".toList ++ ("<".toList ++ (root.toList ++
        (">\n".toList ++ (lists.flatMap (fun fields => (element name tags fields).toList) ++
          closing.toList)))) := by
    simp [openDocument, declaration, toList_concat, List.flatMap_map]
  have hrows : many row?
      (lists.flatMap (fun fields => (element name tags fields).toList) ++ closing.toList) =
        (lists.map (fun fields => ⟨name, tags.zip fields⟩), closing.toList) := by
    refine many_flatMap (fun fields _ rest => row?_append hname htags fields rest)
      (fun fields _ => ?_) (row?_eq_none hclosing)
    simp [element]
  rw [read?, htext, behind?_append]
  simp only [Option.bind_eq_bind, Option.bind_some, behind?_append]
  rw [name?_append hroot (by simp)]
  simp only [Option.bind_some, behind?_append, hrows]
  rfl

/-- Tags that do not fit together, and an ampersand without a name, are not read. -/
example :
    read? (declaration ++ "<r>\n  <row><a>1 &lt; 2</a><b/></row>\n</r>\n") =
        some ⟨"r", [⟨"row", [("a", "1 < 2"), ("b", "")]⟩]⟩ ∧
      read? (declaration ++ "<r>\n  <row><a>1</b></row>\n</r>\n") = none ∧
      read? (declaration ++ "<r>\n  <row><a>1 & 2</a></row>\n</r>\n") = none := by
  cbv

end Written

/-- The fields of all rows, without their tags. -/
def Document.lists (d : Document) : List (List String) :=
  d.rows.map fun row => row.fields.map Prod.snd

end Xml

namespace Criteria

/-- The document of rows with these fields. -/
def xmlText (c : Criteria) (lists : List (List String)) : String :=
  Xml.concat (Xml.openDocument c.kind.xmlRoot ::
    lists.map (Xml.element c.layout.element c.layout.tags) ++ [Xml.closeDocument c.kind.xmlRoot])

/-- What is to be read in it. -/
def document (c : Criteria) (lists : List (List String)) : Xml.Document :=
  ⟨c.kind.xmlRoot, lists.map fun fields => ⟨c.layout.element, c.layout.tags.zip fields⟩⟩

theorem isName_xmlRoot (c : Criteria) : Xml.IsName c.kind.xmlRoot := by
  cases c.kind <;> decide

theorem isName_layout (c : Criteria) :
    ∀ name ∈ c.layout.element :: c.layout.tags, Xml.IsName name := by
  cases c <;> dsimp only [layout, Row] <;> decide

theorem read?_opened (c : Criteria) (lists : List (List String)) (closing : String)
    (hclosing : closing.toList.head? ≠ some ' ') :
    Xml.read? (Xml.concat (Xml.openDocument c.kind.xmlRoot ::
        lists.map (Xml.element c.layout.element c.layout.tags)) ++ closing) =
      (Xml.behind? (Xml.closeDocument c.kind.xmlRoot) closing.toList).bind fun rest =>
        if rest = [] then some (c.document lists) else none := by
  obtain ⟨helement, htags⟩ := List.forall_mem_cons.mp c.isName_layout
  exact Xml.read?_opened c.isName_xmlRoot helement htags lists closing hclosing

theorem read?_xmlText (c : Criteria) (lists : List (List String)) :
    Xml.read? (c.xmlText lists) = some (c.document lists) := by
  have hclosed : Xml.behind? (Xml.closeDocument c.kind.xmlRoot)
      (Xml.concat [Xml.closeDocument c.kind.xmlRoot]).toList = some [] := by
    simpa using Xml.behind?_append (Xml.closeDocument c.kind.xmlRoot) []
  rw [xmlText, Xml.concat_append, c.read?_opened _ _ (by simp [Xml.closeDocument]), hclosed]
  rfl

/-- The fields are all there, each with the tag of its column. -/
theorem lists_document (c : Criteria) {lists : List (List String)}
    (h : ∀ fields ∈ lists, fields.length = c.layout.columns.length) :
    (c.document lists).lists = lists := by
  have hfields (fields : List String) (hmem : fields ∈ lists) :
      (c.layout.tags.zip fields).map Prod.snd = fields := by
    apply List.map_snd_zip
    rw [h fields hmem, Layout.tags, List.length_map]
  rw [Xml.Document.lists, document, List.map_map]
  exact (List.map_congr_left hfields).trans (List.map_id lists)

theorem chunks_xml (c : Criteria) (base : LinkBase) (rows : List c.Row) (ending : Ending) :
    (c.writer .xml base).chunks rows ending = Xml.openDocument c.kind.xmlRoot ::
      (rows.map (c.layout.fields base)).map (Xml.element c.layout.element c.layout.tags) ++
        (c.writer .xml base).closing ending := by
  rw [List.map_map]
  rfl

theorem concat_chunks_xml (c : Criteria) (base : LinkBase) (rows : List c.Row) :
    Xml.concat ((c.writer .xml base).chunks rows .complete) =
      c.xmlText (rows.map (c.layout.fields base)) := by
  rw [chunks_xml]
  rfl

/-- A document that stays open is not read. -/
theorem read?_chunks_xml (c : Criteria) (base : LinkBase) (rows : List c.Row) (ending : Ending) :
    Xml.read? (Xml.concat ((c.writer .xml base).chunks rows ending)) =
      if ending = .complete then some (c.document (rows.map (c.layout.fields base))) else none := by
  by_cases hending : ending = .complete
  · rw [if_pos hending, hending, concat_chunks_xml, read?_xmlText]
  · have hopen : (c.writer .xml base).closing ending = [] := by
      cases ending with
      | complete => exact absurd rfl hending
      | failed | endless => rfl
    have hend : Xml.behind? (Xml.closeDocument c.kind.xmlRoot) (Xml.concat []).toList = none := by
      simp [Xml.behind?, Xml.closeDocument, List.dropPrefix?]
    rw [if_neg hending, chunks_xml, hopen, Xml.concat_append, c.read?_opened _ _ (by simp), hend,
      Option.bind_none]

end Criteria

/-- The document of a report is read back as its rows, with each field under the tag of its column,
whatever the texts of the fields are. No two lists of rows have the same document. A report that is
fetched page by page is read as the rows of all pages if the last one was fetched, and is no document
if it was cut off. -/
theorem xml_reports_read_back :
    (∀ (c : Criteria) (lists : List (List String)),
      (∀ fields ∈ lists, fields.length = c.layout.columns.length) →
      Xml.read? (c.xmlText lists) = some (c.document lists) ∧ (c.document lists).lists = lists ∧
      ∀ (c' : Criteria) (lists' : List (List String)),
        (∀ fields ∈ lists', fields.length = c'.layout.columns.length) →
        lists' ≠ lists → c'.xmlText lists' ≠ c.xmlText lists) ∧
    (∀ value, '<' ∉ (Text.escapeXml value).toList ∧ '>' ∉ (Text.escapeXml value).toList) ∧
    (∀ (c : Criteria) (base : LinkBase) (rows : List c.Row),
      (∀ fields ∈ rows.map (c.layout.fields base), fields.length = c.layout.columns.length) ∧
      ∀ (σ : Type) (capacity : Nat) (after : σ),
        ((c.writer .xml base).output capacity ⟨rows, .complete, after⟩).collect? =
          some (.ok (c.xmlText (rows.map (c.layout.fields base))))) ∧
    ∀ {σ : Type} (source : Source σ) (c : Criteria) (base : LinkBase) (options : StreamOptions)
      (s : σ) (output : Output),
      (startReport source c .xml base options s).1 = .ok output →
      ∃ pages ending after,
        (source c).Reads (.first options.pageSize) s pages ending after ∧
        let lists := (pages.flatMap Page.items).map (c.layout.fields base)
        Xml.read? (Xml.concat output.chunks) =
            (if ending = .complete then some (c.document lists) else none) ∧
          ∀ body, output.collect? = some (.ok body) ↔
            ending = .complete ∧ body = c.xmlText lists := by
  refine ⟨fun c lists h => ⟨c.read?_xmlText lists, c.lists_document h, ?_⟩, Xml.notMem_escapeXml,
    fun c base rows => ⟨?_, fun σ capacity after => ?_⟩,
    fun {σ} source c base options s output houtput => ?_⟩
  · intro c' lists' h' hlists htext
    have hread : c'.document lists' = c.document lists := by
      apply Option.some.inj
      rw [← c'.read?_xmlText, htext, c.read?_xmlText]
    apply hlists
    rw [← c'.lists_document h', hread, c.lists_document h]
  · rintro fields hmem
    obtain ⟨row, -, rfl⟩ := List.mem_map.mp hmem
    exact c.length_fields base row
  · rw [Writer.collect?_output, ← c.concat_chunks_xml]
  · obtain ⟨pages, ending, after, hreads, hchunks, hcollect⟩ :=
      (c.writer .xml base).exists_reads_of_report houtput
    refine ⟨pages, ending, after, hreads, ?_, fun body => ?_⟩
    · rw [hchunks, c.read?_chunks_xml]
    · rw [hcollect, hchunks]
      refine and_congr_right fun hending => ?_
      rw [hending, c.concat_chunks_xml]

namespace Markup

def lists : List (List String) := [["a<b & \"c\"'", "</plugin>", "", "&lt;", "2"]]

def otherLists : List (List String) := [["a<b & \"c\"'", "</plugin>", "", "<", "2"]]

def rows : List AlertDefinitionRow :=
  [⟨7, "free < 10%", none, true, .high, .none, ⟨⟨10020⟩, "</alertDefinition>", none⟩⟩,
    ⟨8, "", some "&amp;", false, .low, .template 3, ⟨⟨10020⟩, "db", none⟩⟩]

def inventory : Inventory := { Inventory.empty with alertDefinitions := rows }

def options : StreamOptions := ⟨1, 1⟩

theorem xml_reports_read_back_markup :
    Xml.read? (Criteria.inventorySummary.xmlText lists) =
        some (Criteria.inventorySummary.document lists) ∧
      Criteria.inventorySummary.xmlText otherLists ≠ Criteria.inventorySummary.xmlText lists ∧
      ∃ output body,
        (startReport (inventory.reportSource Unit) .alertDefinitions .xml (.ofUrl "") options
          ()).1 = .ok output ∧
        output.collect? = some (.ok body) ∧
        Xml.read? (Xml.concat output.chunks) = some (Criteria.alertDefinitions.document
          (rows.map (AlertDefinitionRow.layout.fields (.ofUrl "")))) := by
  have hsize : (inventory.rows .alertDefinitions).length < max options.pageSize 1 * 2 ^ 32 := by
    decide
  obtain ⟨hread, -, -, hfetched⟩ := xml_reports_read_back
  obtain ⟨hlists, -, hdiffer⟩ := hread .inventorySummary lists (by decide)
  have houtput := inventory.startReport_eq .alertDefinitions hsize .xml (.ofUrl "") ()
  obtain ⟨pages, ending, after, hreads, hdocument, -⟩ :=
    hfetched (inventory.reportSource Unit) .alertDefinitions (.ofUrl "") options () _ houtput
  obtain ⟨hrows, rfl⟩ := inventory.rows_of_reads .alertDefinitions hsize hreads
  rw [hrows] at hdocument
  exact ⟨hlists, hdiffer .inventorySummary otherLists (by decide) (by decide), _, _, houtput, rfl,
    hdocument⟩

end Markup

end FleetConsole.Report
