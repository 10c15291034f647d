import FleetConsole.Inventory.Rows
import FleetConsole.Proofs.LowerCase

/-! Parts of texts as filters of the drift report. Part and text are put in lower case, each on its
own, so that a row can have the part just as it was typed and still not be in the report: over a
capital sigma at an end of the part, which takes another form in the middle of the text. -/
namespace FleetConsole.Report

theorem occursIn_iff {part cs : List Char} : occursIn part cs = true ↔ part <:+: cs := by
  induction cs with
  | nil => simp [occursIn]
  | cons c cs ih => rw [occursIn, Bool.or_eq_true, ih, List.isPrefixOf_iff_prefix, List.infix_cons_iff]

theorem containsIgnoringCase_iff {text part : String} : containsIgnoringCase text part = true ↔
    Text.lowerFrom [] part.toList <:+: Text.lowerFrom [] text.toList := by
  rw [containsIgnoringCase, occursIn_iff, Text.lower, Text.lower, String.toList_ofList,
    String.toList_ofList]

/-- The parameters that are part of a text. -/
inductive DriftText
  | definition | path

namespace DriftText

/-- The text of a row that the part is looked for in. -/
def text : DriftText → DriftRow → String
  | .definition => DriftRow.definition
  | .path => DriftRow.path

/-- A request in which nothing else is given. -/
def parameters : DriftText → String → DriftParameters
  | .definition, part => ⟨none, some part, none, none, none, none⟩
  | .path, part => ⟨none, none, none, some part, none, none⟩

variable {p : DriftText} {part : String} {now : Instant} {f : DriftFilter}

theorem exists_read (p : DriftText) (part : String) (now : Instant) :
    ∃ f, DriftFilter.read (p.parameters part) now = .ok f := by
  cases p <;> exact ⟨_, rfl⟩

/-- The rest of the filter accepts everything, and so does an empty part. -/
theorem accepts_of_read (h : DriftFilter.read (p.parameters part) now = .ok f) (row : DriftRow) :
    f.accepts row = containsIgnoringCase (p.text row) part := by
  have hempty (text : String) : containsIgnoringCase text "" = true :=
    containsIgnoringCase_iff.mpr List.nil_infix
  cases p <;> cases h <;> by_cases hpart : part = "" <;>
    simp [DriftFilter.accepts, parameters, text, TimeWindow.contains, hpart, hempty]

/-- A row with a text in both places. -/
def rowOf (text : String) : DriftRow := ⟨"0-1", .epoch, text, 1, .fileAdded, text, ⟨⟨4⟩, "host", none⟩⟩

@[simp] theorem text_rowOf (p : DriftText) (s : String) : p.text (rowOf s) = s := by
  cases p <;> rfl

/-- A row is found by any part of its text in which every capital sigma ends a word just if it does
in the text. For all rows this is so just if the part alone settles what its sigmas do. -/
theorem typed_parts_found_iff (p : DriftText) (part : String) (now : Instant) :
    ∃ f, DriftFilter.read (p.parameters part) now = .ok f ∧
      (∀ (inv : Inventory) row,
        row ∈ inv.rows (.recentDrift f) ↔ row ∈ inv.drift ∧ f.accepts row = true) ∧
      (∀ row front back, (p.text row).toList = front ++ part.toList ++ back →
        (∀ before after, part.toList = before ++ 'Σ' :: after →
          Text.endsWord (before.reverse ++ front.reverse) (after ++ back) =
            Text.endsWord before.reverse after) →
        f.accepts row = true) ∧
      ((∀ row, part.toList <:+: (p.text row).toList → f.accepts row = true) ↔
        Text.SettlesSigmas part.toList) := by
  obtain ⟨f, hread⟩ := exists_read p part now
  refine ⟨f, hread, fun inv row => ?_, fun row front back htext hends => ?_, ?_⟩
  · show row ∈ Inventory.newestFirst _ (inv.drift.filter f.accepts) ↔ _
    rw [Inventory.newestFirst, List.mem_mergeSort, List.mem_filter]
  · rw [accepts_of_read hread, containsIgnoringCase_iff, htext]
    exact Text.lowerFrom_infix hends
  · rw [Text.settlesSigmas_iff]
    constructor
    · intro h cs hpart
      have hfound := h (rowOf (String.ofList cs)) (by simpa using hpart)
      rw [accepts_of_read hread, containsIgnoringCase_iff] at hfound
      simpa using hfound
    · intro h row hpart
      rw [accepts_of_read hread, containsIgnoringCase_iff]
      exact h _ hpart

/-- The sigma ends the part but not the word. -/
theorem typed_part_missed : "ΑΣ".toList <:+: "ΑΣΒ".toList ∧
    ∃ f, DriftFilter.read (definition.parameters "ΑΣ") .epoch = .ok f ∧
      f.accepts (rowOf "ΑΣΒ") = false ∧
      ∀ inv : Inventory, rowOf "ΑΣΒ" ∉ inv.rows (.recentDrift f) := by
  have hmissed : (⟨[], some "ΑΣ", none, none, .everything⟩ : DriftFilter).accepts (rowOf "ΑΣΒ") =
      false := by
    decide +kernel
  refine ⟨⟨[], ['Β'], rfl⟩, _, rfl, hmissed, fun inv h => ?_⟩
  have hkept := (List.mem_filter.mp (List.mem_mergeSort.mp h)).2
  exact absurd (hmissed.symm.trans hkept) (by decide)

end DriftText

end FleetConsole.Report
