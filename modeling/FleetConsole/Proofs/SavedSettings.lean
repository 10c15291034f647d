import FleetConsole.Proofs.EditedSettings

/-! Settings that can be saved. The checks look at what the form shows, where parts of a unit are
dropped toward zero, and yet they bound what is stored: a number of a field is at least the least
one of its range, in milliseconds. Only where zero may be shown can the stored number be smaller,
by less than a unit. -/
namespace FleetConsole

section Quotients

variable {n u : Int}

theorem tdiv_of_neg (hn : n < 0) (u : Int) : n.tdiv u = -(-n / u) := by
  rw [← Int.tdiv_eq_ediv_of_nonneg (by omega), Int.neg_tdiv, neg_neg]

theorem tdiv_nonneg_iff (hu : 0 < u) : 0 ≤ n.tdiv u ↔ -u < n := by
  by_cases hn : n < 0
  · have hquotient : -n / u < 1 ↔ -n < 1 * u := Int.ediv_lt_iff_lt_mul hu
    rw [tdiv_of_neg hn]
    omega
  · have hquotient := Int.tdiv_nonneg (a := n) (b := u) (by omega) hu.le
    exact iff_of_true hquotient (by omega)

theorem le_tdiv_iff {k : Int} (hk : 0 < k) (hu : 0 < u) : k ≤ n.tdiv u ↔ k * u ≤ n := by
  by_cases hn : n < 0
  · have hquotient := Int.ediv_nonneg (a := -n) (b := u) (by omega) hu.le
    have hproduct := mul_pos hk hu
    rw [tdiv_of_neg hn]
    omega
  · rw [Int.tdiv_eq_ediv_of_nonneg (by omega), Int.le_ediv_iff_mul_le hu]

theorem tdiv_le_iff {k : Int} (hk : 0 ≤ k) (hu : 0 < u) : n.tdiv u ≤ k ↔ n < (k + 1) * u := by
  have hnext : k + 1 ≤ n.tdiv u ↔ (k + 1) * u ≤ n := le_tdiv_iff (by omega) hu
  omega

end Quotients

namespace NumericSetting

/-- The stored numbers that are shown in the range of their field. -/
def StoredInRange (f : NumericSetting) (n : Int) : Prop :=
  (if f = .baselineFrequency then -f.millis < n else f.least.toInt * f.millis ≤ n) ∧
    ∀ greatest ∈ f.greatest?, n < (greatest.toInt + 1) * f.millis

theorem storedInRange_iff (f : NumericSetting) (n : Int) :
    f.StoredInRange n ↔ f.InRange (n.tdiv f.millis) := by
  have hgreatest : ∀ greatest ∈ f.greatest?, 0 ≤ greatest.toInt := by
    intro greatest h
    cases f <;> cases h <;> decide
  refine and_congr ?_ (forall₂_congr fun greatest h => ?_)
  · split_ifs with hf
    · subst hf
      exact (tdiv_nonneg_iff (millis_pos _)).symm
    -- The port has no unit, and all other fields have a least number above zero.
    · by_cases hport : f = .httpProxyPort
      · subst hport
        show 0 * 1 ≤ n ↔ 0 ≤ n.tdiv 1
        simp
      · have hleast : 0 < f.least.toInt := by
          cases f <;> first | exact absurd rfl hf | exact absurd rfl hport | decide
        exact (le_tdiv_iff hleast f.millis_pos).symm
  · exact (tdiv_le_iff (hgreatest greatest h) f.millis_pos).symm

end NumericSetting

namespace SystemSettings

variable {s : SystemSettings}

theorem numericErrors_eq_nil_iff :
    s.numericErrors = [] ↔ ∀ f : NumericSetting, f.StoredInRange (f.stored s).toInt := by
  have hshown (f : NumericSetting) :
      f.accepts (f.display s) = true ↔ f.StoredInRange (f.stored s).toInt := by
    rw [NumericSetting.accepts_iff, NumericSetting.storedInRange_iff, NumericSetting.display,
      NumericSetting.toInt_toDisplay]
  simp [numericErrors, NumericSetting.mem_all, hshown]

theorem baseUrlErrors_eq_nil_iff : s.baseUrlErrors = [] ↔
    "http://".toList <+: (Text.trim s.baseUrl).toList ∨
      "https://".toList <+: (Text.trim s.baseUrl).toList := by
  simp only [baseUrlErrors, ← List.isPrefixOf_iff_prefix]
  split_ifs with h
  · simpa using h
  · simpa using h

theorem proxyHostErrors_eq_nil_iff :
    s.proxyHostErrors = [] ↔ ∀ host ∈ s.httpProxyHost, ¬Text.isBlankText host = true := by
  unfold proxyHostErrors
  cases s.httpProxyHost <;> simp

/-- The settings that can be saved, by what is stored. A baseline frequency may be negative by less
than a day; no other number may be negative at all. -/
theorem savable_settings_in_range (s : SystemSettings) : s.canSave = true ↔
    (∀ f : NumericSetting, f.StoredInRange (f.stored s).toInt) ∧
      ("http://".toList <+: (Text.trim s.baseUrl).toList ∨
        "https://".toList <+: (Text.trim s.baseUrl).toList) ∧
      ∀ host ∈ s.httpProxyHost, ¬Text.isBlankText host = true := by
  rw [canSave, List.isEmpty_iff, validate, List.append_eq_nil_iff, List.append_eq_nil_iff,
    numericErrors_eq_nil_iff, baseUrlErrors_eq_nil_iff, proxyHostErrors_eq_nil_iff, and_assoc]

/-- A millisecond less than nothing is shown as nothing. -/
def lessThanNothing : SystemSettings := { initial with baselineFrequency := -1 }

theorem negative_frequency_savable : lessThanNothing.canSave = true ∧
    (NumericSetting.baselineFrequency.stored lessThanNothing).toInt <
      NumericSetting.baselineFrequency.least.toInt * NumericSetting.baselineFrequency.millis := by
  decide +kernel

end SystemSettings

end FleetConsole
