import FleetConsole.Proofs.XmlDocuments

/-! The characters of XML documents. XML 1.0 has no place for most control characters, not even as
entities, and a reader refuses a document with one of them. Tags and entities hold none, but the
texts of fields may, and then they are in the document, so that nobody can read it. -/
namespace FleetConsole.Report

namespace Xml

/-- Whether XML 1.0 has a place for the character. -/
def isXmlChar (c : Char) : Bool :=
  c = '\t' || c = '\n' || c = '\r' || (0x20 ≤ c.toNat && c.toNat ≤ 0xD7FF) ||
    (0xE000 ≤ c.toNat && c.toNat ≤ 0xFFFD) || (0x10000 ≤ c.toNat && c.toNat ≤ 0x10FFFF)

/-- The characters of a text that XML has no place for, in their order. -/
def strayChars (text : String) : List Char := text.toList.filter fun c => !isXmlChar c

/-- A reader that keeps to XML 1.0. -/
def readStrictly? (text : String) : Option Document :=
  if strayChars text = [] then read? text else none

section Stray

theorem strayChars_append (s t : String) : strayChars (s ++ t) = strayChars s ++ strayChars t := by
  rw [strayChars, String.toList_append, List.filter_append]
  rfl

theorem strayChars_concat (parts : List String) :
    strayChars (concat parts) = parts.flatMap strayChars := by
  rw [strayChars, toList_concat, List.filter_flatMap]
  rfl

theorem strayChars_eq_nil_iff {text : String} :
    strayChars text = [] ↔ ∀ c ∈ text.toList, isXmlChar c = true := by
  simp [strayChars, List.filter_eq_nil_iff]

/-- An entity stands for a character that XML has, and consists of such. -/
theorem filter_markupChar (c : Char) :
    (Text.markupChar .named c).filter (fun d => !isXmlChar d) =
      [c].filter fun d => !isXmlChar d := by
  by_cases h : c ∈ Text.marks
  · simp only [Text.marks, List.mem_cons, List.not_mem_nil, or_false] at h
    rcases h with rfl | rfl | rfl | rfl | rfl <;> rfl
  · rw [Text.markupChar_of_notMem h]

/-- What has no place in XML is not made safe. -/
theorem strayChars_escapeXml (value : String) :
    strayChars (Text.escapeXml value) = strayChars value := by
  rw [strayChars, strayChars, Text.toList_escapeXml]
  induction value.toList with
  | nil => rfl
  | cons c cs ih =>
    rw [Text.markupChars_cons, List.filter_append, filter_markupChar, ih, ← List.filter_append,
      List.singleton_append]

theorem isXmlChar_of_isAlpha {c : Char} (h : c.isAlpha = true) : isXmlChar c = true := by
  have hletter : 0x41 ≤ c.toNat ∧ c.toNat ≤ 0x5A ∨ 0x61 ≤ c.toNat ∧ c.toNat ≤ 0x7A := by
    simpa [Char.isAlpha, Char.isUpper, Char.isLower, UInt32.le_iff_toNat_le] using h
  have hrange : 0x20 ≤ c.toNat ∧ c.toNat ≤ 0xD7FF := by omega
  simp [isXmlChar, hrange]

theorem strayChars_of_isName {name : String} (h : IsName name) : strayChars name = [] :=
  strayChars_eq_nil_iff.mpr fun c hc => isXmlChar_of_isAlpha (List.all_eq_true.mp h.2 c hc)

/-- What opens and closes a tag. -/
theorem strayChars_brackets : strayChars declaration = [] ∧ strayChars "<" = [] ∧
    strayChars "  <" = [] ∧ strayChars "</" = [] ∧ strayChars ">" = [] ∧ strayChars "/>" = [] ∧
    strayChars ">\n" = [] := by
  decide

theorem strayChars_fieldElement {tag : String} (h : IsName tag) (value : String) :
    strayChars (fieldElement tag value) = strayChars value := by
  by_cases hempty : value = ""
  · subst hempty
    simp [fieldElement, strayChars_append, strayChars_of_isName h, strayChars_brackets]
    rfl
  · simp [fieldElement, hempty, strayChars_append, strayChars_of_isName h, strayChars_brackets,
      strayChars_escapeXml]

/-- The element of a row has the stray characters of its fields. -/
theorem strayChars_element {name : String} (hname : IsName name) {tags fields : List String}
    (htags : ∀ tag ∈ tags, IsName tag) (hlength : fields.length = tags.length) :
    strayChars (element name tags fields) = fields.flatMap strayChars := by
  have hfields : strayChars (concat (List.zipWith fieldElement tags fields)) =
      fields.flatMap strayChars := by
    rw [strayChars_concat]
    induction tags generalizing fields with
    | nil =>
      obtain rfl : fields = [] := List.length_eq_zero_iff.mp hlength
      rfl
    | cons tag tags ih =>
      obtain ⟨value, fields, rfl⟩ := List.exists_cons_of_length_eq_add_one hlength
      obtain ⟨htag, htags⟩ := List.forall_mem_cons.mp htags
      rw [List.zipWith_cons_cons, List.flatMap_cons, List.flatMap_cons,
        strayChars_fieldElement htag, ih htags (by simpa using hlength)]
  simp only [element, strayChars_append, strayChars_of_isName hname, strayChars_brackets, hfields,
    List.nil_append, List.append_nil]

theorem strayChars_openDocument {root : String} (h : IsName root) :
    strayChars (openDocument root) = [] := by
  simp only [openDocument, strayChars_append, strayChars_of_isName h, strayChars_brackets,
    List.append_nil]

theorem strayChars_closeDocument {root : String} (h : IsName root) :
    strayChars (closeDocument root) = [] := by
  simp only [closeDocument, strayChars_append, strayChars_of_isName h, strayChars_brackets,
    List.append_nil]

end Stray

end Xml

namespace Criteria

theorem strayChars_chunk (c : Criteria) (base : LinkBase) (row : c.Row) :
    Xml.strayChars ((c.writer .xml base).chunk row) =
      (c.layout.fields base row).flatMap Xml.strayChars := by
  obtain ⟨helement, htags⟩ := List.forall_mem_cons.mp c.isName_layout
  apply Xml.strayChars_element helement htags
  show (c.layout.fields base row).length = c.layout.tags.length
  rw [c.length_fields, Layout.tags, List.length_map]

/-- Row by row, a document has the stray characters of the fields and no others. -/
theorem strayChars_chunks (c : Criteria) (base : LinkBase) (rows : List c.Row) (ending : Ending) :
    Xml.strayChars (Xml.concat ((c.writer .xml base).chunks rows ending)) =
      (rows.flatMap (c.layout.fields base)).flatMap Xml.strayChars := by
  have hopening : Xml.strayChars (c.writer .xml base).opening = [] :=
    Xml.strayChars_openDocument c.isName_xmlRoot
  have hclosing : ((c.writer .xml base).closing ending).flatMap Xml.strayChars = [] := by
    cases ending with
    | complete => simpa [Writer.closing, Writer.foot, writer] using
        Xml.strayChars_closeDocument c.isName_xmlRoot
    | failed | endless => rfl
  have hrows : (rows.map (c.writer .xml base).chunk).flatMap Xml.strayChars =
      (rows.flatMap (c.layout.fields base)).flatMap Xml.strayChars := by
    rw [List.flatMap_map, List.flatMap_assoc]
    congr 1
    funext row
    exact c.strayChars_chunk base row
  rw [Xml.strayChars_concat, Writer.chunks, List.cons_append, List.flatMap_cons,
    List.flatMap_append, hopening, hrows, hclosing, List.nil_append, List.append_nil]

end Criteria

/-- The document of a report has the characters without a place in XML that the texts of its fields
have, in their order, and no others. So a reader that keeps to XML 1.0 gets the rows if all pages
were fetched and no text of a field has such a character, and refuses the document otherwise. -/
theorem xml_characters_of_fields {σ : Type} (source : Source σ) (c : Criteria) (base : LinkBase)
    (options : StreamOptions) (s : σ) (output : Output)
    (h : (startReport source c .xml base options s).1 = .ok output) :
    ∃ pages ending after, (source c).Reads (.first options.pageSize) s pages ending after ∧
      let rows := pages.flatMap Page.items
      let texts := rows.flatMap (c.layout.fields base)
      Xml.strayChars (Xml.concat output.chunks) = texts.flatMap Xml.strayChars ∧
      ((∀ ch ∈ (Xml.concat output.chunks).toList, Xml.isXmlChar ch = true) ↔
        ∀ text ∈ texts, ∀ ch ∈ text.toList, Xml.isXmlChar ch = true) ∧
      Xml.readStrictly? (Xml.concat output.chunks) =
        if ending = .complete ∧ ∀ text ∈ texts, Xml.strayChars text = [] then
          some (c.document (rows.map (c.layout.fields base))) else none := by
  obtain ⟨pages, ending, after, hreads, hchunks, -⟩ :=
    (c.writer .xml base).exists_reads_of_report h
  have hstray := c.strayChars_chunks base (pages.flatMap Page.items) ending
  rw [← hchunks] at hstray
  refine ⟨pages, ending, after, hreads, hstray, ?_, ?_⟩
  · rw [← Xml.strayChars_eq_nil_iff, hstray, List.flatMap_eq_nil_iff]
    exact forall₂_congr fun text _ => Xml.strayChars_eq_nil_iff
  · -- The markup can be read whatever the texts are, so only their characters are left to ask for.
    have hnone : Xml.strayChars (Xml.concat output.chunks) = [] ↔
        ∀ text ∈ (pages.flatMap Page.items).flatMap (c.layout.fields base),
          Xml.strayChars text = [] := by
      rw [hstray, List.flatMap_eq_nil_iff]
    have hread := c.read?_chunks_xml base (pages.flatMap Page.items) ending
    rw [← hchunks] at hread
    rw [Xml.readStrictly?, hread]
    simp only [hnone]
    split_ifs <;> tauto

namespace Markup

theorem xml_characters_of_fields_markup : ∃ output,
    (startReport (inventory.reportSource Unit) .alertDefinitions .xml (.ofUrl "") options ()).1 =
        .ok output ∧
      (∀ ch ∈ (Xml.concat output.chunks).toList, Xml.isXmlChar ch = true) ∧
      Xml.readStrictly? (Xml.concat output.chunks) = some (Criteria.alertDefinitions.document
        (rows.map (AlertDefinitionRow.layout.fields (.ofUrl "")))) := by
  have hsize : (inventory.rows .alertDefinitions).length < max options.pageSize 1 * 2 ^ 32 := by
    decide
  have houtput := inventory.startReport_eq .alertDefinitions hsize .xml (.ofUrl "") ()
  obtain ⟨pages, ending, after, hreads, -, hall, hread⟩ :=
    xml_characters_of_fields _ .alertDefinitions (.ofUrl "") options () _ houtput
  obtain ⟨hrows, rfl⟩ := inventory.rows_of_reads .alertDefinitions hsize hreads
  rw [hrows] at hall hread
  have htexts : ∀ text ∈ rows.flatMap (AlertDefinitionRow.layout.fields (.ofUrl "")),
      Xml.strayChars text = [] := by decide_cbv
  refine ⟨_, houtput, hall.mpr fun text htext => ?_, hread.trans (if_pos ⟨rfl, htexts⟩)⟩
  exact Xml.strayChars_eq_nil_iff.mp (htexts text htext)

end Markup

namespace ControlCharacter

def row : AlertDefinitionRow :=
  ⟨7, "free\x01space", none, true, .high, .none, ⟨⟨10020⟩, "db", none⟩⟩

def inventory : Inventory := { Inventory.empty with alertDefinitions := [row] }

def options : StreamOptions := ⟨200, 64⟩

/-- A name with a control character is written as it is, and no reader that keeps to XML 1.0 takes
the document, though it is whole. -/
theorem document_unreadable : ∃ output,
    (startReport (inventory.reportSource Unit) .alertDefinitions .xml (.ofUrl "") options ()).1 =
        .ok output ∧
      output.ending = .complete ∧ '\x01' ∈ (Xml.concat output.chunks).toList ∧
      Xml.isXmlChar '\x01' = false ∧ Xml.readStrictly? (Xml.concat output.chunks) = none := by
  have hsize : (inventory.rows .alertDefinitions).length < max options.pageSize 1 * 2 ^ 32 := by
    decide
  have houtput := inventory.startReport_eq .alertDefinitions hsize .xml (.ofUrl "") ()
  have hstray : Xml.strayChars (Xml.concat ((Criteria.alertDefinitions.writer .xml
      (.ofUrl "")).chunks [row] .complete)) = ['\x01'] := by
    rw [Criteria.strayChars_chunks]
    decide_cbv
  refine ⟨_, houtput, rfl, ?_, by decide, ?_⟩
  · exact List.mem_of_mem_filter (hstray ▸ List.mem_singleton_self _)
  · exact if_neg fun hnone => by cases hstray.symm.trans hnone

end ControlCharacter

end FleetConsole.Report
