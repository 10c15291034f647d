import FleetConsole.Proofs.Negotiation

/-! Ranges with quality zero, by which a client refuses a form of a report. They are passed over and
bar nothing: a form that is refused by its name comes back through any other range that names it, a
wildcard or its own name once more. -/
namespace FleetConsole.Report.ReportFormat

/-- A range that names a media type with quality zero. -/
def Refuses (text media : String) : Prop :=
  ∃ type params, Text.fieldsOn ';' text = type :: params ∧
    Text.asciiLower (Text.trim type) = media ∧ HasQuality params 0

theorem Refuses.quality_eq_zero {text media : String} (h : Refuses text media) :
    (rangeOf text).quality = 0 := by
  obtain ⟨type, params, hsplit, -, hzero⟩ := h
  rw [rangeOf_eq hsplit]
  exact findSome?_qualityParameter_iff.mpr hzero

variable {k : ReportKind} {text media : String} {q : Quality} {f : ReportFormat}

theorem Refuses.not_offers (h : Refuses text media) : ¬Offers k text q f := by
  intro hoffers
  have hpos := (offers_iff.mp hoffers).1
  simp [h.quality_eq_zero] at hpos

/-- The ranges of a header that a client does not refuse. -/
def takenTexts (accept : String) : List String :=
  (Text.fieldsOn ',' accept).filter fun text => 0 < (rangeOf text).quality

theorem firstBest_takenTexts_iff (accept : String) :
    FirstBest (Offers k) (takenTexts accept) q f ↔
      FirstBest (Offers k) (Text.fieldsOn ',' accept) q f := by
  have hoffers : (fun text q f => decide (0 < (rangeOf text).quality) = true ∧ Offers k text q f) =
      Offers k := by
    funext text q f
    refine propext (and_iff_right_of_imp fun h => ?_)
    exact decide_eq_true (offers_iff.mp h).1
  rw [takenTexts, firstBest_filter_iff, hoffers]

/-- Where all ranges that offer anything offer the same, it is chosen. -/
theorem negotiate_eq_ok_iff_of_unrivalled {accept : String} (h : Text.isBlankText accept = false)
    (hsame : ∀ text ∈ Text.fieldsOn ',' accept, ∀ q g, Offers k text q g → g = f) :
    negotiate (some accept) k = .ok f ↔
      ∃ text ∈ Text.fieldsOn ',' accept, ∃ q, Offers k text q f := by
  constructor
  · intro hok
    obtain ⟨q, hbest⟩ := (negotiate_eq_ok_iff h).mp hok
    obtain ⟨text, htext, hoffers⟩ := hbest.exists_mem
    exact ⟨text, htext, q, hoffers⟩
  · rintro ⟨text, htext, q, hoffers⟩
    cases hanswer : negotiate (some accept) k with
    | error e =>
      have hnone := ((negotiate_eq_error_iff h).mp hanswer).2
      exact absurd hoffers (hnone text htext q f)
    | ok g =>
      obtain ⟨p, hbest⟩ := (negotiate_eq_ok_iff h).mp hanswer
      obtain ⟨other, hother, hoffered⟩ := hbest.exists_mem
      rw [hsame other hother p g hoffered]

/-- The form chosen is that of the first best range among those with a quality above zero, whatever
the others refuse; so it is named by a range that refuses nothing. Where all ranges above zero that
name a form of the report name the same one, it is chosen, refused or not. -/
theorem refusals_passed_over (k : ReportKind) (f : ReportFormat) {accept : String}
    (h : Text.isBlankText accept = false) :
    (negotiate (some accept) k = .ok f ↔
      ∃ q, FirstBest (Offers k) (takenTexts accept) q f) ∧
    (negotiate (some accept) k = .ok f →
      ∃ text ∈ Text.fieldsOn ',' accept, (∀ media, ¬Refuses text media) ∧
        ∃ q, Offers k text q f) ∧
    ((∀ text ∈ Text.fieldsOn ',' accept, ∀ q g, Offers k text q g → g = f) →
      (negotiate (some accept) k = .ok f ↔
        ∃ text ∈ Text.fieldsOn ',' accept, ∃ q, Offers k text q f)) := by
  refine ⟨?_, fun hok => ?_, negotiate_eq_ok_iff_of_unrivalled h⟩
  · simp only [firstBest_takenTexts_iff]
    exact negotiate_eq_ok_iff h
  · obtain ⟨q, hbest⟩ := (negotiate_eq_ok_iff h).mp hok
    obtain ⟨text, htext, hoffers⟩ := hbest.exists_mem
    exact ⟨text, htext, fun media hrefuses => hrefuses.not_offers hoffers, q, hoffers⟩

namespace Wildcards

def noLines : String := "text/csv;q=0, */*"

def noDocument : String := "application/xml;q=0, application/*"

theorem refuses_lines : Refuses "text/csv;q=0" "text/csv" :=
  ⟨"text/csv", ["q=0"], by cbv, by cbv, findSome?_qualityParameter_iff.mp (by decide +kernel)⟩

theorem refuses_document : Refuses "application/xml;q=0" "application/xml" :=
  ⟨"application/xml", ["q=0"], by cbv, by cbv,
    findSome?_qualityParameter_iff.mp (by decide +kernel)⟩

theorem fieldsOn_noLines : Text.fieldsOn ',' noLines = ["text/csv;q=0", " */*"] := by cbv

theorem fieldsOn_noDocument :
    Text.fieldsOn ',' noDocument = ["application/xml;q=0", " application/*"] := by cbv

theorem offers_lines : Offers .recentAlerts " */*" fullQuality .csv :=
  offers_iff.mpr ⟨by decide +kernel, by decide +kernel, by rfl⟩

theorem offers_document : Offers .inventorySummary " application/*" fullQuality .xml :=
  offers_iff.mpr ⟨by decide +kernel, by decide +kernel, by rfl⟩

theorem refusals_passed_over_wildcards :
    negotiate (some noLines) .recentAlerts = .ok .csv ∧
      negotiate (some noDocument) .inventorySummary = .ok .xml ∧
      (∃ q, FirstBest (Offers .inventorySummary) (takenTexts noDocument) q .xml) ∧
      ∃ text ∈ Text.fieldsOn ',' noLines, (∀ media, ¬Refuses text media) ∧
        ∃ q, Offers .recentAlerts text q .csv := by
  have hlines : ∀ text ∈ Text.fieldsOn ',' noLines, ∀ q g,
      Offers .recentAlerts text q g → g = .csv := by
    rintro text - q (_ | _) hoffers
    · rfl
    · cases hoffers.had
  have hdocument : ∀ text ∈ Text.fieldsOn ',' noDocument, ∀ q g,
      Offers .inventorySummary text q g → g = .xml := by
    rw [fieldsOn_noDocument, List.forall_mem_cons, List.forall_mem_singleton]
    refine ⟨fun q g hoffers => absurd hoffers refuses_document.not_offers, fun q g hoffers => ?_⟩
    exact Option.some.inj
      ((offers_iff.mp hoffers).2.2.symm.trans (offers_iff.mp offers_document).2.2)
  have hnoLines : Text.isBlankText noLines = false := by cbv
  have hnoDocument : Text.isBlankText noDocument = false := by cbv
  obtain ⟨-, hnamed, hchosen⟩ := refusals_passed_over .recentAlerts .csv hnoLines
  obtain ⟨hbest, -, hchosen'⟩ := refusals_passed_over .inventorySummary .xml hnoDocument
  have hcsv := (hchosen hlines).mpr ⟨" */*", by simp [fieldsOn_noLines], _, offers_lines⟩
  have hxml := (hchosen' hdocument).mpr
    ⟨" application/*", by simp [fieldsOn_noDocument], _, offers_document⟩
  exact ⟨hcsv, hxml, hbest.mp hxml, hnamed hcsv⟩

/-- Lines are refused and chosen, and so is the document, which is not named otherwise. -/
theorem refused_forms_chosen :
    (∃ text ∈ Text.fieldsOn ',' noLines, Refuses text "text/csv") ∧
      negotiate (some noLines) .recentAlerts = .ok .csv ∧
      negotiate (some noLines) .inventorySummary = .ok .csv ∧
      (∃ text ∈ Text.fieldsOn ',' noDocument, Refuses text "application/xml") ∧
      (∀ text ∈ Text.fieldsOn ',' noDocument,
        Text.asciiLower (rangeOf text).media ≠ "text/xml") ∧
      negotiate (some noDocument) .inventorySummary = .ok .xml := by
  have hblank : Text.isBlankText noLines = false := by cbv
  have hblank' : Text.isBlankText noDocument = false := by cbv
  have hranges : acceptedRanges noLines = [⟨"*/*", 2 ^ 149⟩] := by decide +kernel
  have hranges' : acceptedRanges noDocument = [⟨"application/*", 2 ^ 149⟩] := by decide +kernel
  refine ⟨⟨_, by rw [fieldsOn_noLines]; exact List.mem_cons_self, refuses_lines⟩, ?_, ?_,
    ⟨_, by rw [fieldsOn_noDocument]; exact List.mem_cons_self, refuses_document⟩, ?_, ?_⟩
  · exact negotiate_of_singleton hblank hranges rfl
  · exact negotiate_of_singleton hblank hranges rfl
  · rw [fieldsOn_noDocument]
    decide +kernel
  · exact negotiate_of_singleton hblank' hranges' rfl

end Wildcards

end FleetConsole.Report.ReportFormat
