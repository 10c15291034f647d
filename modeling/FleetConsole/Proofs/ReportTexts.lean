import Mathlib
import FleetConsole.Proofs.Entities
import FleetConsole.Report.Stream

/-! The texts a report is made of, spelled out: what a line or a row element holds for each field,
and what stands at the beginning and at the end. -/
namespace FleetConsole

theorem Text.joinWith_eq_intercalate (sep : String) (pieces : List String) :
    joinWith sep pieces = sep.intercalate pieces := by
  induction pieces with
  | nil => rfl
  | cons s rest ih =>
    cases rest with
    | nil => simp
    | cons t rest => rw [joinWith_cons_cons, String.intercalate_cons_cons, ih]

namespace Report

theorem Xml.concat_eq_join (parts : List String) : concat parts = String.join parts := by
  induction parts with
  | nil => rfl
  | cons part parts ih => rw [concat_cons, String.join_cons, ih]

/-- What stands in a line for a field. -/
inductive Csv.CellOf : CsvStyle → String → String → Prop
  | sanitized {field cell : String}
      (h : cell.toList = field.toList.map fun c => if c = ',' ∨ c = '\n' then ' ' else c) :
      CellOf .sanitize field cell
  | plain {field : String} (hplain : ∀ c ∈ field.toList, c ≠ ',' ∧ c ≠ '\n' ∧ c ≠ '"') :
      CellOf .quote field field
  | quoted {field cell : String} (hmarks : ∃ c ∈ field.toList, c = ',' ∨ c = '\n' ∨ c = '"')
      (h : cell.toList =
        '"' :: (field.toList.flatMap fun c => if c = '"' then ['"', '"'] else [c]) ++ ['"']) :
      CellOf .quote field cell

/-- What stands in a row element for a field. Text is escaped, so that it has no markup of its own
and yet can be read back. -/
inductive Xml.FieldOf (tag : String) : String → String → Prop
  | empty : FieldOf tag "" ("<" ++ tag ++ "/>")
  | text {field escaped : String} (h : field ≠ "")
      (hmarkup : ∀ c ∈ escaped.toList, c ≠ '<' ∧ c ≠ '>')
      (hread : Text.unescape? .named none escaped.toList = some field.toList) :
      FieldOf tag field ("<" ++ tag ++ ">" ++ escaped ++ "</" ++ tag ++ ">")

theorem Csv.cellOf_field (style : CsvStyle) (field : String) :
    CellOf style field (Csv.field style field) := by
  cases style with
  | sanitize =>
    refine .sanitized ((toList_sanitize field).trans (List.map_congr_left fun c _ => ?_))
    simp [sanitizeChar]
  | quote =>
    have hmarks : field.toList.any needsQuotes ↔
        ∃ c ∈ field.toList, c = ',' ∨ c = '\n' ∨ c = '"' := by
      simp [needsQuotes, or_assoc]
    by_cases h : field.toList.any needsQuotes
    · refine .quoted (hmarks.mp h) ?_
      rw [Csv.field, toList_quote, quoteChars, if_pos h]
      rfl
    · have hquote : quote field = field := by
        rw [← String.toList_inj, toList_quote, quoteChars, if_neg h]
      rw [Csv.field, hquote]
      exact .plain (by simpa using fun hex => h (hmarks.mpr hex))

theorem Xml.fieldOf_fieldElement (tag field : String) :
    FieldOf tag field (fieldElement tag field) := by
  by_cases h : field = ""
  · rw [fieldElement, if_pos h, h]
    exact .empty
  · rw [fieldElement, if_neg h]
    refine .text h (fun c hc => ⟨?_, ?_⟩) ?_
    · rintro rfl
      exact Text.notMem_markupChars _ (by decide) (by decide) _ (Text.toList_escapeXml _ ▸ hc)
    · rintro rfl
      exact Text.notMem_markupChars _ (by decide) (by decide) _ (Text.toList_escapeXml _ ▸ hc)
    · rw [Text.toList_escapeXml, Text.unescape?_markupChars]

namespace Writer

variable {Row : Type} (w : Writer Row)

/-- What is written for a row with these fields. -/
inductive ChunkOf (fields : List String) : String → Prop
  | line {cells : List String} (hformat : w.format = .csv)
      (hcells : List.Forall₂ (Csv.CellOf w.kind.csvStyle) fields cells) :
      ChunkOf fields (",".intercalate cells ++ "\n")
  | element {parts : List String} (hformat : w.format = .xml)
      (hparts : List.Forall₂ (fun (tag, field) => Xml.FieldOf tag field) (w.layout.tags.zip fields)
        parts) :
      ChunkOf fields
        ("  <" ++ w.layout.element ++ ">" ++ String.join parts ++ "</" ++ w.layout.element ++ ">\n")

/-- The texts a writer puts together. -/
structure Spelled : Prop where
  opening_eq : w.opening =
    match w.format with
    | .csv => ",".intercalate w.layout.headers ++ "\n"
    | .xml => "<?xml version=\"1.0\" encoding=\"UTF-8\"?>\n<" ++ w.kind.xmlRoot ++ ">\n"
  chunk_of : ∀ row, w.ChunkOf (w.layout.fields w.base row) (w.chunk row)
  foot_eq : w.foot =
    match w.format with
    | .csv => []
    | .xml => ["</" ++ w.kind.xmlRoot ++ ">\n"]

theorem spelled : w.Spelled where
  opening_eq := by
    unfold opening
    cases w.format with
    | csv => rw [Csv.headerLine, Text.joinWith_eq_intercalate]
    | xml => simp [Xml.openDocument, Xml.declaration]
  chunk_of row := by
    unfold chunk
    cases hformat : w.format with
    | csv =>
      simp only [Csv.line, Text.joinWith_eq_intercalate]
      refine .line hformat (List.forall₂_map_right_iff.mpr ?_)
      exact List.forall₂_same.mpr fun field _ => Csv.cellOf_field _ field
    | xml =>
      simp only [Xml.element, Xml.concat_eq_join, ← List.map_uncurry_zip_eq_zipWith]
      refine .element hformat (List.forall₂_map_right_iff.mpr ?_)
      exact List.forall₂_same.mpr fun part _ => Xml.fieldOf_fieldElement part.1 part.2
  foot_eq := by
    unfold foot
    cases w.format <;> rfl

end Writer

end Report

end FleetConsole
