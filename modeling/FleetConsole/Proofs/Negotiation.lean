import Mathlib
import FleetConsole.Proofs.Separators
import FleetConsole.Report.Format

/-! Which form of a report a client gets. Of the ranges that it accepts and that name a form the
report has, one of the greatest quality decides, the first of them where there are several. All
other ranges may as well be left out. -/
namespace FleetConsole.Report

section Offers

variable {α β : Type} {offers : α → Nat → β → Prop} {a : α} {l : List α} {q : Nat} {b : β}

/-- The first among the best offers of a list: those before it are lower, those behind it not
higher. -/
def FirstBest (offers : α → Nat → β → Prop) (l : List α) (q : Nat) (b : β) : Prop :=
  ∃ front a back, l = front ++ a :: back ∧ offers a q b ∧
    (∀ s ∈ front, ∀ p c, offers s p c → p < q) ∧ ∀ s ∈ back, ∀ p c, offers s p c → p ≤ q

theorem FirstBest.exists_mem (h : FirstBest offers l q b) : ∃ a ∈ l, offers a q b := by
  obtain ⟨front, a, back, rfl, ha, -⟩ := h
  exact ⟨a, by simp, ha⟩

@[simp] theorem not_firstBest_nil : ¬FirstBest offers [] q b := by
  rintro ⟨front, a, back, hnil, -⟩
  simp at hnil

theorem firstBest_cons_iff :
    FirstBest offers (a :: l) q b ↔
      (offers a q b ∧ ∀ s ∈ l, ∀ p c, offers s p c → p ≤ q) ∨
        (∀ p c, offers a p c → p < q) ∧ FirstBest offers l q b := by
  constructor
  · rintro ⟨front, s, back, hsplit, hs, hfront, hback⟩
    cases front with
    | nil =>
      obtain ⟨rfl, rfl⟩ := List.cons.inj hsplit
      exact .inl ⟨hs, hback⟩
    | cons first front =>
      obtain ⟨rfl, rfl⟩ := List.cons.inj hsplit
      rw [List.forall_mem_cons] at hfront
      exact .inr ⟨hfront.1, front, s, back, rfl, hs, hfront.2, hback⟩
  · rintro (⟨ha, hback⟩ | ⟨ha, front, s, back, rfl, hs, hfront, hback⟩)
    · exact ⟨[], a, l, rfl, ha, by simp, hback⟩
    · exact ⟨a :: front, s, back, rfl, hs, List.forall_mem_cons.mpr ⟨ha, hfront⟩, hback⟩

theorem firstBest_map_iff {γ : Type} {l : List γ} (g : γ → α) :
    FirstBest offers (l.map g) q b ↔ FirstBest (fun a => offers (g a)) l q b := by
  induction l with
  | nil => simp
  | cons a l ih => simp [firstBest_cons_iff, ih]

/-- What is filtered out offers nothing. -/
theorem firstBest_filter_iff (P : α → Bool) :
    FirstBest offers (l.filter P) q b ↔
      FirstBest (fun a q b => P a = true ∧ offers a q b) l q b := by
  induction l with
  | nil => simp
  | cons a l ih =>
    cases hP : P a with
    | false => simp [firstBest_cons_iff, hP, ih]
    | true =>
      have hrest : (∀ s ∈ l.filter P, ∀ p c, offers s p c → p ≤ q) ↔
          ∀ s ∈ l, ∀ p c, P s = true ∧ offers s p c → p ≤ q := by
        simp only [List.mem_filter, and_imp]
        exact ⟨fun h s hs p c hs' => h s hs hs' p c, fun h s hs hs' p c => h s hs p c hs'⟩
      simp only [List.filter_cons_of_pos hP, firstBest_cons_iff, ih, hP, hrest, true_and]

/-- An element that offers nothing does not matter. -/
theorem firstBest_insert_iff {front back : List α} (ha : ∀ p c, ¬offers a p c) :
    FirstBest offers (front ++ a :: back) q b ↔ FirstBest offers (front ++ back) q b := by
  induction front with
  | nil => simp [firstBest_cons_iff, ha]
  | cons s front ih =>
    have hrest : (∀ t ∈ front ++ a :: back, ∀ p c, offers t p c → p ≤ q) ↔
        ∀ t ∈ front ++ back, ∀ p c, offers t p c → p ≤ q := by
      have hnone : ∀ p c, offers a p c → p ≤ q := fun p c hoffer => absurd hoffer (ha p c)
      rw [List.forall_mem_append, List.forall_mem_append, List.forall_mem_cons]
      exact and_congr_right fun _ => and_iff_right hnone
    rw [List.cons_append, List.cons_append, firstBest_cons_iff, firstBest_cons_iff, ih, hrest]

/-- An element may as well come before others whose offers are all better than its own. -/
theorem firstBest_append_cons_iff {front back : List α}
    (h : ∀ s ∈ front, ∀ p c p' c', offers s p c → offers a p' c' → p' < p) :
    FirstBest offers (front ++ a :: back) q b ↔ FirstBest offers (a :: (front ++ back)) q b := by
  induction front with
  | nil => rfl
  | cons s front ih =>
    rw [List.forall_mem_cons] at h
    have hrest : (∀ t ∈ front ++ a :: back, ∀ p c, offers t p c → p ≤ q) ↔
        (∀ p c, offers a p c → p ≤ q) ∧ ∀ t ∈ front ++ back, ∀ p c, offers t p c → p ≤ q := by
      rw [List.forall_mem_append, List.forall_mem_cons, List.forall_mem_append]
      exact and_left_comm
    rw [List.cons_append, List.cons_append, firstBest_cons_iff, ih h.2, hrest,
      firstBest_cons_iff, firstBest_cons_iff, firstBest_cons_iff, List.forall_mem_cons]
    constructor
    · rintro (⟨hs, ha, hle⟩ | ⟨hs, ⟨ha, hle⟩ | hlater⟩)
      · exact .inr ⟨fun p c hc => h.1 _ _ _ _ hs hc, .inl ⟨hs, hle⟩⟩
      · exact .inl ⟨ha, fun p c hc => (hs p c hc).le, hle⟩
      · exact .inr ⟨hlater.1, .inr ⟨hs, hlater.2⟩⟩
    · rintro (⟨ha, hs, hle⟩ | ⟨ha, ⟨hs, hle⟩ | hlater⟩)
      · exact .inr ⟨fun p c hc => absurd (hs p c hc) (h.1 _ _ _ _ hc ha).not_ge, .inl ⟨ha, hle⟩⟩
      · exact .inl ⟨hs, fun p c hc => (ha p c hc).le, hle⟩
      · exact .inr ⟨hlater.1, .inr ⟨ha, hlater.2⟩⟩

end Offers

namespace ReportFormat

section Ranked

variable {β : Type} {f : MediaRange → Option β} {ranges : List MediaRange} {q : Quality} {b : β}

/-- The first best range of quality `q`, of those for which `f` has a value. -/
abbrev BestRange (f : MediaRange → Option β) (ranges : List MediaRange) (q : Quality) (b : β) :
    Prop :=
  FirstBest (fun r q b => r.quality = q ∧ f r = some b) ranges q b

theorem ranks_trans (r s t : MediaRange) (hrs : decide (s.quality ≤ r.quality) = true)
    (hst : decide (t.quality ≤ s.quality) = true) : decide (t.quality ≤ r.quality) = true := by
  rw [decide_eq_true_eq] at hrs hst ⊢
  exact hst.trans hrs

theorem ranks_total (r s : MediaRange) :
    (decide (s.quality ≤ r.quality) || decide (r.quality ≤ s.quality)) = true := by
  rw [Bool.or_eq_true, decide_eq_true_eq, decide_eq_true_eq]
  exact Nat.le_total _ _

theorem pairwise_ranked (ranges : List MediaRange) :
    (ranked ranges).Pairwise fun r s => s.quality ≤ r.quality := by
  simpa [ranked] using List.pairwise_mergeSort ranks_trans ranks_total ranges

/-- Where a range comes to stand among ranges that are ranked already. -/
theorem ranked_cons (r : MediaRange) (ranges : List MediaRange) :
    ∃ better others, ranked (r :: ranges) = better ++ r :: others ∧
      ranked ranges = better ++ others ∧ ∀ s ∈ better, r.quality < s.quality := by
  obtain ⟨better, others, hcons, hranked, hbetter⟩ :=
    List.mergeSort_cons ranks_trans ranks_total r ranges
  exact ⟨better, others, hcons, hranked, fun s hs => by simpa using hbetter s hs⟩

theorem mem_ranked {r : MediaRange} : r ∈ ranked ranges ↔ r ∈ ranges :=
  List.mem_mergeSort

/-- Ranking ranges does not change which is the first best. -/
theorem bestRange_ranked_iff : BestRange f (ranked ranges) q b ↔ BestRange f ranges q b := by
  induction ranges with
  | nil => simp [ranked]
  | cons r ranges ih =>
    obtain ⟨better, others, hcons, hranked, hbetter⟩ := ranked_cons r ranges
    have hmoved : BestRange f (better ++ r :: others) q b ↔
        BestRange f (r :: (better ++ others)) q b :=
      firstBest_append_cons_iff fun s hs p c p' c' hp hp' => hp.1 ▸ hp'.1 ▸ hbetter s hs
    rw [hcons, hmoved, ← hranked, BestRange, BestRange, firstBest_cons_iff, firstBest_cons_iff]
    simp only [mem_ranked, ih]

theorem findSome?_eq_some_iff_of_sorted (h : ranges.Pairwise fun r s => s.quality ≤ r.quality) :
    ranges.findSome? f = some b ↔ ∃ q, BestRange f ranges q b := by
  rw [List.findSome?_eq_some_iff]
  constructor
  · rintro ⟨front, r, back, rfl, hb, hfront⟩
    rw [List.pairwise_append, List.pairwise_cons] at h
    refine ⟨r.quality, front, r, back, rfl, ⟨rfl, hb⟩, fun s hs p c hc => ?_, ?_⟩
    · simp [hfront s hs] at hc
    · rintro s hs p c ⟨rfl, -⟩
      exact h.2.1.1 s hs
  · rintro ⟨q, front, r, back, rfl, ⟨rfl, hb⟩, hfront, -⟩
    rw [List.pairwise_append] at h
    refine ⟨front, r, back, rfl, hb, fun s hs => Option.eq_none_iff_forall_ne_some.mpr ?_⟩
    exact fun c hc => (hfront s hs _ c ⟨rfl, hc⟩).not_ge (h.2.2 s hs r List.mem_cons_self)

theorem findSome?_ranked_eq_some_iff :
    (ranked ranges).findSome? f = some b ↔ ∃ q, BestRange f ranges q b := by
  rw [findSome?_eq_some_iff_of_sorted (pairwise_ranked ranges)]
  simp only [bestRange_ranked_iff]

end Ranked

/-- The media types, in lower case, that a client may name a form by. -/
def mediaNames : ReportFormat → List String
  | .csv => ["text/csv", "text/*", "*/*"]
  | .xml => ["application/xml", "text/xml", "application/*"]

/-- Every report is to be had as lines. -/
def IsHad (k : ReportKind) : ReportFormat → Prop
  | .csv => True
  | .xml => k.supportsXml = true

theorem ofMedia?_eq (k : ReportKind) (media : String) :
    ofMedia? k media =
      if Text.asciiLower media ∈ mediaNames .csv then some .csv
      else if k.supportsXml = true ∧ Text.asciiLower media ∈ mediaNames .xml then some .xml
      else none := by
  rw [ofMedia?]
  simp only [List.contains_iff_mem, Bool.and_eq_true]
  rfl

theorem ofMedia?_eq_some_iff {k : ReportKind} {media : String} {f : ReportFormat} :
    ofMedia? k media = some f ↔ IsHad k f ∧ Text.asciiLower media ∈ f.mediaNames := by
  rw [ofMedia?_eq]
  by_cases hcsv : Text.asciiLower media ∈ mediaNames .csv
  · -- no name stands for both forms
    have hxml : Text.asciiLower media ∉ mediaNames .xml := by
      simp only [mediaNames, List.mem_cons, List.not_mem_nil, or_false] at hcsv
      rcases hcsv with h | h | h <;> rw [h] <;> decide
    rw [if_pos hcsv]
    cases f with
    | csv => simp [IsHad, hcsv]
    | xml => simp [hxml]
  · rw [if_neg hcsv]
    cases f <;> simp [IsHad, hcsv]

/-- A parameter gives a quality if it can be read as a number. -/
def GivesQuality (param : String) (q : Quality) : Prop :=
  ∃ value d, Text.trim param = "q=" ++ value ∧ Number.Decimal.read (Text.trim value) = some d ∧
    qualityOf d = q

theorem qualityParameter_eq_some_iff {param : String} {q : Quality} :
    qualityParameter param.toList = some q ↔ GivesQuality param q := by
  rw [qualityParameter, GivesQuality]
  constructor
  · intro h
    split at h
    · rename_i value htrim
      obtain ⟨d, hd, rfl⟩ := Option.map_eq_some_iff.mp h
      refine ⟨String.ofList value, d, ?_, ?_, rfl⟩
      · rw [← String.toList_inj, Text.toList_trim, htrim]
        simp
      · rw [Text.trim, String.toList_ofList, hd]
    · cases h
  · rintro ⟨value, d, htrim, hd, rfl⟩
    have hchars : Text.trimChars param.toList = 'q' :: '=' :: value.toList := by
      rw [← Text.toList_trim, htrim]
      simp
    rw [hchars]
    simp only
    rw [← Text.trim, hd, Option.map_some]

/-- The quality of a range with these parameters: the first that is given, or one. -/
inductive HasQuality : List String → Quality → Prop
  | given {front back : List String} {param : String} {q : Quality}
      (hfront : ∀ p ∈ front, ∀ r, ¬GivesQuality p r) (hparam : GivesQuality param q) :
      HasQuality (front ++ param :: back) q
  | full {params : List String} (h : ∀ p ∈ params, ∀ r, ¬GivesQuality p r) :
      HasQuality params fullQuality

theorem qualityParameter_eq_none_iff {param : String} :
    qualityParameter param.toList = none ↔ ∀ q, ¬GivesQuality param q := by
  simp only [Option.eq_none_iff_forall_ne_some, ne_eq, qualityParameter_eq_some_iff]

theorem findSome?_qualityParameter_iff {params : List String} {q : Quality} :
    ((params.map String.toList).findSome? qualityParameter).getD fullQuality = q ↔
      HasQuality params q := by
  rw [List.findSome?_map]
  constructor
  · rintro rfl
    cases h : params.findSome? (qualityParameter ∘ String.toList) with
    | none =>
      refine .full fun p hp => qualityParameter_eq_none_iff.mp ?_
      exact List.findSome?_eq_none_iff.mp h p hp
    | some q =>
      obtain ⟨front, param, back, rfl, hparam, hfront⟩ := List.findSome?_eq_some_iff.mp h
      exact .given (fun p hp => qualityParameter_eq_none_iff.mp (hfront p hp))
        (qualityParameter_eq_some_iff.mp hparam)
  · intro h
    cases h with
    | @given front back param q hfront hparam =>
      have hfound : (front ++ param :: back).findSome? (qualityParameter ∘ String.toList) =
          some q :=
        List.findSome?_eq_some_iff.mpr ⟨front, param, back, rfl,
          qualityParameter_eq_some_iff.mpr hparam,
          fun p hp => qualityParameter_eq_none_iff.mpr (hfront p hp)⟩
      rw [hfound, Option.getD_some]
    | full hnone =>
      have hnot : params.findSome? (qualityParameter ∘ String.toList) = none :=
        List.findSome?_eq_none_iff.mpr fun p hp => qualityParameter_eq_none_iff.mpr (hnone p hp)
      rw [hnot, Option.getD_none]

/-- With the text of a range a client takes a form of the report, at a quality above zero. -/
structure Offers (k : ReportKind) (text : String) (q : Quality) (f : ReportFormat) : Prop where
  had : IsHad k f
  named : ∃ media params, Text.fieldsOn ';' text = media :: params ∧
    Text.asciiLower (Text.trim media) ∈ f.mediaNames ∧ HasQuality params q
  taken : 0 < q

/-- The range with this text. -/
def rangeOf (text : String) : MediaRange := readRange text.toList

theorem rangeOf_eq {text media : String} {params : List String}
    (h : Text.fieldsOn ';' text = media :: params) :
    rangeOf text = ⟨Text.trim media,
      ((params.map String.toList).findSome? qualityParameter).getD fullQuality⟩ := by
  have hchars : text.toList.splitOn ';' = media.toList :: params.map String.toList := by
    have hmap := congrArg (List.map String.toList) h
    rw [Text.fieldsOn, List.map_map] at hmap
    simpa [Function.comp_def] using hmap
  rw [rangeOf, readRange, hchars]
  rfl

theorem offers_iff {k : ReportKind} {text : String} {q : Quality} {f : ReportFormat} :
    Offers k text q f ↔ 0 < (rangeOf text).quality ∧ (rangeOf text).quality = q ∧
      ofMedia? k (rangeOf text).media = some f := by
  obtain ⟨media, params, hsplit⟩ : ∃ media params, Text.fieldsOn ';' text = media :: params :=
    List.exists_cons_of_ne_nil (Text.fieldsOn_ne_nil ';' text)
  rw [rangeOf_eq hsplit, ofMedia?_eq_some_iff, findSome?_qualityParameter_iff]
  constructor
  · rintro ⟨hhad, ⟨media', params', hsplit', hnamed, hquality⟩, htaken⟩
    obtain ⟨rfl, rfl⟩ := List.cons.inj (hsplit.symm.trans hsplit')
    rw [findSome?_qualityParameter_iff.mpr hquality]
    exact ⟨htaken, hquality, hhad, hnamed⟩
  · rintro ⟨htaken, hquality, hhad, hnamed⟩
    rw [findSome?_qualityParameter_iff.mpr hquality] at htaken
    exact ⟨hhad, ⟨media, params, hsplit, hnamed, hquality⟩, htaken⟩

theorem not_offers_of_unnamed {k : ReportKind} {text : String}
    (h : ofMedia? k (rangeOf text).media = none) (q : Quality) (f : ReportFormat) :
    ¬Offers k text q f := by
  rw [offers_iff, h]
  simp

/-- The ranges of a header, without those of quality zero. -/
theorem acceptedRanges_eq (accept : String) :
    acceptedRanges accept =
      ((Text.fieldsOn ',' accept).map rangeOf).filter fun r => 0 < r.quality := by
  simp [acceptedRanges, Text.fieldsOn, rangeOf, Function.comp_def]

theorem findSome?_acceptedRanges_eq_some_iff {k : ReportKind} {accept : String}
    {f : ReportFormat} :
    ((ranked (acceptedRanges accept)).findSome? fun r => ofMedia? k r.media) = some f ↔
      ∃ q, FirstBest (Offers k) (Text.fieldsOn ',' accept) q f := by
  have hoffers : Offers k = fun text q f => decide (0 < (rangeOf text).quality) = true ∧
      (rangeOf text).quality = q ∧ ofMedia? k (rangeOf text).media = some f := by
    funext text q f
    rw [offers_iff, decide_eq_true_eq]
  rw [findSome?_ranked_eq_some_iff, acceptedRanges_eq, hoffers]
  simp only [firstBest_filter_iff, firstBest_map_iff]

theorem findSome?_acceptedRanges_eq_none_iff {k : ReportKind} {accept : String} :
    ((ranked (acceptedRanges accept)).findSome? fun r => ofMedia? k r.media) = none ↔
      ∀ text ∈ Text.fieldsOn ',' accept, ∀ q f, ¬Offers k text q f := by
  rw [List.findSome?_eq_none_iff]
  simp only [mem_ranked, acceptedRanges_eq, List.mem_filter, List.mem_map, decide_eq_true_eq]
  constructor
  · intro h text htext q f hoffers
    obtain ⟨htaken, -, hf⟩ := offers_iff.mp hoffers
    exact absurd ((h _ ⟨⟨text, htext, rfl⟩, htaken⟩).symm.trans hf) (by simp)
  · rintro h _ ⟨⟨text, htext, rfl⟩, htaken⟩
    refine Option.eq_none_iff_forall_ne_some.mpr fun f hf => ?_
    exact h text htext _ f (offers_iff.mpr ⟨htaken, rfl, hf⟩)

/-- The refusal of a client that no form of the report will do for. -/
def unavailable (k : ReportKind) (accept : String) : Fault :=
  .notAcceptable "Requested representation is not available for this report"
    ("report " ++ k.path ++ " cannot satisfy Accept: " ++ accept)

section Negotiate

variable {k : ReportKind} {accept : String}

theorem negotiate_of_blank (h : Text.isBlankText accept = true) :
    negotiate (some accept) k = .ok .csv := by
  simp [negotiate, Option.filter, h]

theorem negotiate_of_not_blank (h : Text.isBlankText accept = false) :
    negotiate (some accept) k =
      match (ranked (acceptedRanges accept)).findSome? fun r => ofMedia? k r.media with
      | some format => .ok format
      | none => .error (unavailable k accept) := by
  simp only [negotiate, Option.filter, h, Bool.not_false, if_true]
  rfl

theorem negotiate_of_singleton (h : Text.isBlankText accept = false) {r : MediaRange}
    (hr : acceptedRanges accept = [r]) {f : ReportFormat} (hf : ofMedia? k r.media = some f) :
    negotiate (some accept) k = .ok f := by
  rw [negotiate_of_not_blank h, hr, ranked, List.mergeSort_singleton, List.findSome?_singleton, hf]

theorem negotiate_eq_ok_iff (h : Text.isBlankText accept = false) {f : ReportFormat} :
    negotiate (some accept) k = .ok f ↔
      ∃ q, FirstBest (Offers k) (Text.fieldsOn ',' accept) q f := by
  rw [negotiate_of_not_blank h, ← findSome?_acceptedRanges_eq_some_iff]
  split <;> simp [*]

theorem negotiate_eq_error_iff (h : Text.isBlankText accept = false) {e : Fault} :
    negotiate (some accept) k = .error e ↔
      e = unavailable k accept ∧ ∀ text ∈ Text.fieldsOn ',' accept, ∀ q f, ¬Offers k text q f := by
  rw [negotiate_of_not_blank h, ← findSome?_acceptedRanges_eq_none_iff]
  split <;> simp [*, eq_comm]

/-- Two headers with the same best offers lead to the same form, or both to none. -/
theorem toOption_negotiate_congr {other : String} (h : Text.isBlankText accept = false)
    (hother : Text.isBlankText other = false)
    (hsame : ∀ q f, FirstBest (Offers k) (Text.fieldsOn ',' other) q f ↔
      FirstBest (Offers k) (Text.fieldsOn ',' accept) q f) :
    (negotiate (some other) k).toOption = (negotiate (some accept) k).toOption := by
  have hok (r : Except Fault ReportFormat) (f : ReportFormat) :
      r.toOption = some f ↔ r = .ok f := by
    cases r <;> simp [Except.toOption]
  refine Option.ext fun f => ?_
  simp only [hok, negotiate_eq_ok_iff h, negotiate_eq_ok_iff hother, hsame]

/-- A header with a comma is not blank. -/
theorem isBlankText_eq_false {s : String} (h : ',' ∈ s.toList) : Text.isBlankText s = false := by
  rw [Text.isBlankText, List.all_eq_false]
  exact ⟨',', h, by decide⟩

theorem toOption_negotiate_insert (h : Text.isBlankText accept = false) {front back : List String}
    {range : String} (hsplit : Text.fieldsOn ',' accept = front ++ back)
    (hrange : ',' ∉ range.toList) (hnone : ∀ q f, ¬Offers k range q f) :
    (negotiate (some (Text.joinWith "," (front ++ range :: back))) k).toOption =
      (negotiate (some accept) k).toOption := by
  have hpieces : ∀ s ∈ front ++ range :: back, ',' ∉ s.toList := by
    have hfields : ∀ s ∈ front ++ back, ',' ∉ s.toList := fun s hs =>
      Text.notMem_of_mem_fieldsOn (hsplit ▸ hs)
    rw [List.forall_mem_append] at hfields
    rw [List.forall_mem_append, List.forall_mem_cons]
    exact ⟨hfields.1, hrange, hfields.2⟩
  have hfields : Text.fieldsOn ',' (Text.joinWith "," (front ++ range :: back)) =
      front ++ range :: back :=
    Text.fieldsOn_joinWith rfl (by simp) hpieces
  -- the range stands beside another one, so that there is a comma between them
  have hcomma : ',' ∈ (Text.joinWith "," (front ++ range :: back)).toList := by
    by_contra hnot
    have hone := congrArg List.length (hfields.symm.trans (Text.fieldsOn_of_notMem hnot))
    have hsome : front ++ back ≠ [] := hsplit ▸ Text.fieldsOn_ne_nil ',' accept
    rw [ne_eq, ← List.length_eq_zero_iff, List.length_append] at hsome
    simp only [List.length_append, List.length_cons, List.length_nil] at hone
    omega
  refine toOption_negotiate_congr h (isBlankText_eq_false hcomma) fun q f => ?_
  rw [hfields, hsplit, firstBest_insert_iff hnone]

end Negotiate

/-- Without a wish a client gets lines. Otherwise it gets the form that the first of its best ranges
names, among those with a quality above zero that name a form of the report, and it is refused
exactly if there is none. No client gets a document of a report without one, and a range that names
nothing of the report makes no difference wherever it stands. -/
theorem first_best_range_negotiated (k : ReportKind) :
    negotiate none k = .ok .csv ∧
    (∀ accept, Text.isBlankText accept = true → negotiate (some accept) k = .ok .csv) ∧
    (∀ accept, Text.isBlankText accept = false →
      (∀ f, negotiate (some accept) k = .ok f ↔
        ∃ q, FirstBest (Offers k) (Text.fieldsOn ',' accept) q f) ∧
      ((∃ e, negotiate (some accept) k = .error e) ↔
        ∀ text ∈ Text.fieldsOn ',' accept, ∀ q f, ¬Offers k text q f) ∧
      (∀ e, negotiate (some accept) k = .error e → e.kind = .notAcceptable) ∧
      ∀ (front back : List String) (range : String),
        Text.fieldsOn ',' accept = front ++ back → ',' ∉ range.toList →
        (∀ q f, ¬Offers k range q f) →
        (negotiate (some (Text.joinWith "," (front ++ range :: back))) k).toOption =
          (negotiate (some accept) k).toOption) ∧
    (k.supportsXml = false → ∀ accept, negotiate accept k ≠ .ok .xml) := by
  refine ⟨rfl, fun accept h => negotiate_of_blank h, fun accept h => ⟨fun f => ?_, ?_, ?_, ?_⟩, ?_⟩
  · exact negotiate_eq_ok_iff h
  · simp only [negotiate_eq_error_iff h, exists_eq_left]
  · intro e he
    rw [((negotiate_eq_error_iff h).mp he).1]
    rfl
  · exact fun front back range hsplit hrange hnone =>
      toOption_negotiate_insert h hsplit hrange hnone
  · intro hxml accept
    cases accept with
    | none => simp [negotiate]
    | some accept =>
      cases hblank : Text.isBlankText accept with
      | true => simp [negotiate_of_blank hblank]
      | false =>
        rw [ne_eq, negotiate_eq_ok_iff hblank]
        rintro ⟨q, hbest⟩
        obtain ⟨text, -, hoffers⟩ := hbest.exists_mem
        have hhad : k.supportsXml = true := hoffers.had
        simp [hxml] at hhad

namespace EvenQualities

/-- The first range has its quality from its second parameter, and so has the next one. -/
def header : String :=
  "Application/XML;q=x;q=0.5, text/*;level=1;q=.5;q=1, text/csv;q=nan,, */*;q=25e-2"

def behind : List String := [" text/csv;q=nan", "", " */*;q=25e-2"]

theorem ranked_header :
    ranked (acceptedRanges header) = [⟨"", 2 ^ 149⟩, ⟨"Application/XML", 2 ^ 148⟩,
      ⟨"text/*", 2 ^ 148⟩, ⟨"*/*", 2 ^ 147⟩] := by
  have hranges : acceptedRanges header = [⟨"Application/XML", 2 ^ 148⟩, ⟨"text/*", 2 ^ 148⟩,
      ⟨"", 2 ^ 149⟩, ⟨"*/*", 2 ^ 147⟩] := by decide +kernel
  rw [hranges]
  simp [ranked, List.mergeSort, List.MergeSort.Internal.splitInTwo]

theorem negotiate_header :
    negotiate (some header) .inventorySummary = .ok .xml ∧
      negotiate (some header) .recentAlerts = .ok .csv := by
  have hblank : Text.isBlankText header = false := by cbv
  rw [negotiate_of_not_blank hblank, negotiate_of_not_blank hblank, ranked_header]
  exact ⟨rfl, rfl⟩

/-- A range that names nothing, and one with quality zero. -/
def refused : String := "application/json, text/csv;q=0"

theorem negotiate_refused : negotiate (some refused) .inventorySummary =
    .error (unavailable .inventorySummary refused) := by
  have hblank : Text.isBlankText refused = false := by cbv
  have hranges : acceptedRanges refused = [⟨"application/json", 2 ^ 149⟩] := by decide +kernel
  rw [negotiate_of_not_blank hblank, hranges, ranked, List.mergeSort_singleton]
  rfl

theorem first_best_range_negotiated_even_qualities :
    (∃ q, FirstBest (Offers .inventorySummary) (Text.fieldsOn ',' header) q .xml) ∧
      (negotiate (some (Text.joinWith "," (["Application/XML;q=x;q=0.5"] ++ "image/png" ::
        " text/*;level=1;q=.5;q=1" :: behind))) .inventorySummary).toOption = some .xml ∧
      negotiate (some header) .recentAlerts = .ok .csv ∧
      negotiate (some header) .recentAlerts ≠ .ok .xml ∧
      negotiate (some " \t") .inventorySummary = .ok .csv ∧
      ∃ e, negotiate (some refused) .inventorySummary = .error e ∧ e.kind = .notAcceptable := by
  obtain ⟨hxml, hcsv⟩ := negotiate_header
  have hsplit : Text.fieldsOn ',' header = ["Application/XML;q=x;q=0.5"] ++
      " text/*;level=1;q=.5;q=1" :: behind := by cbv
  have hpicture : ∀ q f, ¬Offers .inventorySummary "image/png" q f :=
    not_offers_of_unnamed (by rfl)
  obtain ⟨-, hblank, hsummary, -⟩ := first_best_range_negotiated .inventorySummary
  obtain ⟨-, -, -, hlines⟩ := first_best_range_negotiated .recentAlerts
  obtain ⟨hbest, -, -, hinsert⟩ := hsummary header (by cbv)
  obtain ⟨-, -, hkind, -⟩ := hsummary refused (by cbv)
  refine ⟨(hbest .xml).mp hxml, ?_, hcsv, hlines rfl (some header), hblank _ (by cbv), _,
    negotiate_refused, hkind _ negotiate_refused⟩
  rw [hinsert _ _ "image/png" hsplit (by decide) hpicture, hxml]
  rfl

end EvenQualities

end ReportFormat

end FleetConsole.Report
