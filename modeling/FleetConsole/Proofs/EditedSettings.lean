import Mathlib
import FleetConsole.Settings

/-! Numbers typed into the form of the settings, one after the other. A field shows the number typed
last for it, or the nearest one whose milliseconds can be stored, and is reported just if the number
that was typed is out of its range. Everything else stays as it was. -/
namespace FleetConsole

/-- A number that cannot be stored becomes the nearest one that can. -/
theorem toInt_ofIntClamp_eq_max (n : Int) : (Int64.ofIntClamp n).toInt =
    max Int64.minValue.toInt (min n Int64.maxValue.toInt) := by
  unfold Int64.ofIntClamp
  have hbounds : Int64.minValue.toInt ≤ Int64.maxValue.toInt := by decide
  split_ifs with hlow hhigh
  · rw [Int64.toInt_ofIntLE, min_eq_left hhigh, max_eq_right hlow]
  · rw [min_eq_right (by omega), max_eq_right hbounds]
  · rw [max_eq_left]
    exact min_le_of_left_le (by omega)

namespace DisplayUnit

theorem millis_pos (u : DisplayUnit) : 0 < u.millis := by
  cases u <;> decide

theorem toInt_ofMillis (u : DisplayUnit) (n : Int64) :
    (u.ofMillis n).toInt = n.toInt.tdiv u.millis := by
  have hlow := Int.tdiv_le_tdiv u.millis_pos n.minValue_le_toInt
  have hhigh := Int.tdiv_le_tdiv u.millis_pos n.toInt_le
  have hbounds : -2 ^ 63 ≤ Int64.minValue.toInt.tdiv u.millis ∧
      Int64.maxValue.toInt.tdiv u.millis < 2 ^ 63 := by
    cases u <;> decide
  exact Int64.toInt_ofInt_of_le (hbounds.1.trans hlow) (hhigh.trans_lt hbounds.2)

end DisplayUnit

namespace NumericSetting

/-- What one of a field's numbers stands for: so many milliseconds, or itself. -/
def millis (f : NumericSetting) : Int :=
  match f.unit? with
  | none => 1
  | some .minutes => 60 * 1000
  | some .hours => 60 * 60 * 1000
  | some .days => 24 * 60 * 60 * 1000

theorem millis_eq_elim (f : NumericSetting) : f.millis = f.unit?.elim 1 DisplayUnit.millis := by
  cases f <;> rfl

theorem millis_pos (f : NumericSetting) : 0 < f.millis := by
  cases f <;> decide

theorem toInt_toDisplay (f : NumericSetting) (stored : Int64) :
    (f.toDisplay stored).toInt = stored.toInt.tdiv f.millis := by
  rw [toDisplay, millis_eq_elim]
  cases f.unit? with
  | none => simp
  | some u => exact u.toInt_ofMillis stored

theorem toInt_ofDisplay (f : NumericSetting) (value : Int64) : (f.ofDisplay value).toInt =
    max Int64.minValue.toInt (min (value.toInt * f.millis) Int64.maxValue.toInt) := by
  rw [ofDisplay, millis_eq_elim]
  cases f.unit? with
  | none =>
    show value.toInt = max _ (min (value.toInt * 1) _)
    rw [mul_one, min_eq_left value.toInt_le, max_eq_right value.minValue_le_toInt]
  | some u => exact toInt_ofIntClamp_eq_max _

/-- The number that is shown for one that was typed. -/
def nearestShown (f : NumericSetting) (value : Int64) : Int :=
  max (Int64.minValue.toInt.tdiv f.millis) (min value.toInt (Int64.maxValue.toInt.tdiv f.millis))

/-- Dividing keeps the order, so it may be done before the nearest stored number is taken. -/
theorem toInt_toDisplay_ofDisplay (f : NumericSetting) (value : Int64) :
    (f.toDisplay (f.ofDisplay value)).toInt = f.nearestShown value := by
  have hmono : Monotone fun n : Int => n.tdiv f.millis := fun _ _ h =>
    Int.tdiv_le_tdiv f.millis_pos h
  rw [toInt_toDisplay, toInt_ofDisplay, nearestShown]
  calc (max Int64.minValue.toInt (min (value.toInt * f.millis) Int64.maxValue.toInt)).tdiv f.millis
      = max (Int64.minValue.toInt.tdiv f.millis)
          (min ((value.toInt * f.millis).tdiv f.millis) (Int64.maxValue.toInt.tdiv f.millis)) := by
        rw [← hmono.map_min, ← hmono.map_max]
    _ = _ := by rw [Int.mul_tdiv_cancel _ f.millis_pos.ne']

/-- The range of a field, from its least number to its greatest, if it has one. -/
def InRange (f : NumericSetting) (n : Int) : Prop :=
  f.least.toInt ≤ n ∧ ∀ greatest ∈ f.greatest?, n ≤ greatest.toInt

theorem accepts_iff {f : NumericSetting} {value : Int64} :
    f.accepts value = true ↔ f.InRange value.toInt := by
  simp [accepts, InRange, Int64.le_iff_toInt_le, Option.all_eq_true]

/-- The bounds of every range lie among the numbers that are shown, so that taking the nearest one
of these crosses no bound. -/
theorem inRange_nearestShown_iff {f : NumericSetting} {value : Int64} :
    f.InRange (f.nearestShown value) ↔ f.InRange value.toInt := by
  have hleast : Int64.minValue.toInt.tdiv f.millis < f.least.toInt ∧
      f.least.toInt ≤ Int64.maxValue.toInt.tdiv f.millis := by
    cases f <;> decide
  have hgreatest : ∀ greatest ∈ f.greatest?,
      Int64.minValue.toInt.tdiv f.millis ≤ greatest.toInt ∧
        greatest.toInt < Int64.maxValue.toInt.tdiv f.millis := by
    intro greatest h
    cases f <;> cases h <;> decide
  unfold InRange nearestShown
  refine and_congr (by omega) (forall₂_congr fun greatest h => ?_)
  have hbounds := hgreatest greatest h
  omega

theorem ofName?_eq_some_iff {name : String} {f : NumericSetting} :
    ofName? name = some f ↔ f.name = name := by
  constructor
  · intro h
    simpa using List.find?_some h
  · rintro rfl
    exact ofName?_name f

theorem ofName?_eq_none_iff {name : String} :
    ofName? name = none ↔ ∀ f : NumericSetting, f.name ≠ name := by
  simp only [Option.eq_none_iff_forall_ne_some, ne_eq, ofName?_eq_some_iff]

theorem name_injective : Function.Injective name := by
  intro f g h
  exact Option.some.inj ((ofName?_name f).symm.trans (h ▸ ofName?_name g))

theorem mem_all (f : NumericSetting) : f ∈ all := by
  cases f <;> decide

theorem store_comm {f g : NumericSetting} (h : f ≠ g) (s : SystemSettings) (m n : Int64) :
    g.store (f.store s m) n = f.store (g.store s n) m := by
  cases f <;> cases g <;> first | rfl | exact absurd rfl h

end NumericSetting

/-- A number typed for the field of a name. -/
structure SettingEdit where
  name : String
  value : Int64
  deriving DecidableEq, Repr

/-- The name on an edit is that of one field, or of none. -/
theorem SettingEdit.known_or_unknown (edit : SettingEdit) :
    (∃ f : NumericSetting, f.name = edit.name) ∨ ∀ f : NumericSetting, f.name ≠ edit.name := by
  by_cases h : ∃ f : NumericSetting, f.name = edit.name
  · exact .inl h
  · exact .inr (by simpa using h)

/-- The number typed last for a field. -/
def NumericSetting.lastTyped (f : NumericSetting) (edits : List SettingEdit) : Option Int64 :=
  (edits.filter (·.name = f.name)).getLast?.map SettingEdit.value

theorem NumericSetting.lastTyped_append_singleton (f : NumericSetting) (edits : List SettingEdit)
    (edit : SettingEdit) : f.lastTyped (edits ++ [edit]) =
      if edit.name = f.name then some edit.value else f.lastTyped edits := by
  by_cases h : edit.name = f.name <;> simp [lastTyped, h]

namespace SystemSettings

/-- The settings after a number was typed. They are as before if that was refused. -/
def afterEdit (s : SystemSettings) (edit : SettingEdit) : SystemSettings :=
  (s.setDisplay edit.name edit.value).toOption.getD s

def afterEdits (s : SystemSettings) (edits : List SettingEdit) : SystemSettings :=
  edits.foldl afterEdit s

/-- The settings that are not numbers. -/
def unnumbered (s : SystemSettings) : String × Bool × Bool × Bool × Bool × Option String :=
  (s.baseUrl, s.agentAutoUpdateEnabled, s.debugModeEnabled, s.loginWithoutRolesEnabled,
    s.dataReindexNightly, s.httpProxyHost)

/-- The settings `t` are what becomes of `s` when numbers are typed one after the other. -/
structure Edited (s : SystemSettings) (edits : List SettingEdit) (t : SystemSettings) : Prop where
  shown : ∀ (f : NumericSetting) v, f.lastTyped edits = some v →
    (t.display? f.name).map Int64.toInt = some (f.nearestShown v)
  reported : ∀ (f : NumericSetting) v, f.lastTyped edits = some v →
    ((∃ e ∈ t.validate, e.field = f.name) ↔ ¬f.InRange v.toInt)
  untouched : ∀ f : NumericSetting, f.lastTyped edits = none → f.stored t = f.stored s
  unnumbered : t.unnumbered = s.unnumbered
  /-- A known name is not refused, whatever the number. -/
  taken : ∀ edit (f : NumericSetting), f.name = edit.name →
    t.setDisplay edit.name edit.value = .ok (t.afterEdit edit)
  refused : ∀ edit, (∀ f : NumericSetting, f.name ≠ edit.name) →
    (∃ e, t.setDisplay edit.name edit.value = .error e ∧ e.kind = .invalidInput) ∧
      t.afterEdit edit = t
  swapped : ∀ front a b back, edits = front ++ a :: b :: back → a.name ≠ b.name →
    s.afterEdits (front ++ b :: a :: back) = t

variable {s : SystemSettings} {edit : SettingEdit}

section Edit

theorem setDisplay_of_name {f : NumericSetting} (h : f.name = edit.name) :
    s.setDisplay edit.name edit.value = .ok (f.store s (f.ofDisplay edit.value)) := by
  rw [setDisplay, NumericSetting.ofName?_eq_some_iff.mpr h]

theorem setDisplay_of_unknown (h : ∀ f : NumericSetting, f.name ≠ edit.name) :
    s.setDisplay edit.name edit.value = .error
      (.invalid "Unknown system setting" ("no numeric setting named " ++ edit.name)) := by
  rw [setDisplay, NumericSetting.ofName?_eq_none_iff.mpr h]

theorem afterEdit_of_name {f : NumericSetting} (h : f.name = edit.name) :
    s.afterEdit edit = f.store s (f.ofDisplay edit.value) := by
  rw [afterEdit, setDisplay_of_name h]
  rfl

theorem afterEdit_of_unknown (h : ∀ f : NumericSetting, f.name ≠ edit.name) :
    s.afterEdit edit = s := by
  rw [afterEdit, setDisplay_of_unknown h]
  rfl

/-- One number typed changes one field at most. -/
theorem stored_afterEdit (g : NumericSetting) : g.stored (s.afterEdit edit) =
    if edit.name = g.name then g.ofDisplay edit.value else g.stored s := by
  by_cases h : edit.name = g.name
  · rw [if_pos h, afterEdit_of_name h.symm, NumericSetting.stored_store_self]
  · rw [if_neg h]
    rcases edit.known_or_unknown with ⟨f, hf⟩ | hunknown
    · have hne : f ≠ g := fun hfg => h (hfg ▸ hf.symm)
      rw [afterEdit_of_name hf, NumericSetting.stored_store_of_ne hne]
    · rw [afterEdit_of_unknown hunknown]

theorem unnumbered_afterEdit (s : SystemSettings) (edit : SettingEdit) :
    (s.afterEdit edit).unnumbered = s.unnumbered := by
  rcases edit.known_or_unknown with ⟨f, hf⟩ | hunknown
  · rw [afterEdit_of_name hf]
    cases f <;> rfl
  · rw [afterEdit_of_unknown hunknown]

theorem afterEdit_comm {a b : SettingEdit} (h : a.name ≠ b.name) (s : SystemSettings) :
    (s.afterEdit a).afterEdit b = (s.afterEdit b).afterEdit a := by
  rcases a.known_or_unknown with ⟨f, hf⟩ | ha
  · rcases b.known_or_unknown with ⟨g, hg⟩ | hb
    · have hne : f ≠ g := fun hfg => h (hf.symm.trans (hfg ▸ hg))
      simp only [afterEdit_of_name hf, afterEdit_of_name hg]
      exact NumericSetting.store_comm hne s _ _
    · rw [afterEdit_of_unknown hb, afterEdit_of_unknown hb]
  · rw [afterEdit_of_unknown ha, afterEdit_of_unknown ha]

/-- The form reports a field under its name, and nothing else under that. -/
theorem exists_mem_validate_iff {f : NumericSetting} :
    (∃ e ∈ s.validate, e.field = f.name) ↔ f.accepts (f.display s) = false := by
  have hnumeric : (∃ e ∈ s.numericErrors, e.field = f.name) ↔
      f.accepts (f.display s) = false := by
    simp [numericErrors, NumericSetting.mem_all, NumericSetting.name_injective.eq_iff]
  have hbaseUrl : ∀ e ∈ s.baseUrlErrors, e.field ≠ f.name := by
    intro e he
    simp only [baseUrlErrors] at he
    split at he
    · simp at he
    · rw [List.mem_singleton.mp he]
      cases f <;> decide
  have hproxyHost : ∀ e ∈ s.proxyHostErrors, e.field ≠ f.name := by
    intro e he
    unfold proxyHostErrors at he
    split at he
    · rw [List.mem_singleton.mp he]
      cases f <;> decide
    · simp at he
  -- The other two errors are on fields without a number.
  rw [← hnumeric, validate]
  constructor
  · rintro ⟨e, he, hfield⟩
    rw [List.mem_append, List.mem_append] at he
    rcases he with (he | he) | he
    · exact ⟨e, he, hfield⟩
    · exact absurd hfield (hbaseUrl e he)
    · exact absurd hfield (hproxyHost e he)
  · rintro ⟨e, he, hfield⟩
    exact ⟨e, by simp [he], hfield⟩

end Edit

section Edits

variable {edits : List SettingEdit}

theorem afterEdits_append_singleton (s : SystemSettings) (edits : List SettingEdit)
    (edit : SettingEdit) : s.afterEdits (edits ++ [edit]) = (s.afterEdits edits).afterEdit edit := by
  simp [afterEdits]

theorem stored_afterEdits (f : NumericSetting) (s : SystemSettings) (edits : List SettingEdit) :
    f.stored (s.afterEdits edits) = ((f.lastTyped edits).map f.ofDisplay).getD (f.stored s) := by
  induction edits using List.reverseRecOn with
  | nil => rfl
  | append_singleton edits edit ih =>
    rw [afterEdits_append_singleton, stored_afterEdit, f.lastTyped_append_singleton, ih]
    split_ifs <;> rfl

theorem unnumbered_afterEdits (s : SystemSettings) (edits : List SettingEdit) :
    (s.afterEdits edits).unnumbered = s.unnumbered := by
  induction edits using List.reverseRecOn with
  | nil => rfl
  | append_singleton edits edit ih => rw [afterEdits_append_singleton, unnumbered_afterEdit, ih]

theorem toInt_display_afterEdits {f : NumericSetting} {v : Int64}
    (h : f.lastTyped edits = some v) :
    (f.display (s.afterEdits edits)).toInt = f.nearestShown v := by
  rw [NumericSetting.display, stored_afterEdits, h]
  exact f.toInt_toDisplay_ofDisplay v

theorem afterEdits_swap {a b : SettingEdit} (h : a.name ≠ b.name) (s : SystemSettings)
    (front back : List SettingEdit) :
    s.afterEdits (front ++ b :: a :: back) = s.afterEdits (front ++ a :: b :: back) := by
  simp only [afterEdits, List.foldl_append, List.foldl_cons, afterEdit_comm h]

end Edits

/-- Of the numbers typed for a field the last one counts, and of two fields it does not matter which
is filled in first. A number too large for its milliseconds to be stored is shown as a smaller one,
but never so small that a number out of range would pass. -/
theorem last_typed_numbers_shown (s : SystemSettings) (edits : List SettingEdit) :
    s.Edited edits (s.afterEdits edits) where
  shown f v h := by
    rw [display?, NumericSetting.ofName?_name, Option.map_some, Option.map_some,
      toInt_display_afterEdits h]
  reported f v h := by
    rw [exists_mem_validate_iff, ← Bool.not_eq_true, NumericSetting.accepts_iff,
      toInt_display_afterEdits h, NumericSetting.inRange_nearestShown_iff]
  untouched f h := by
    rw [stored_afterEdits, h]
    rfl
  unnumbered := unnumbered_afterEdits s edits
  taken edit f h := by
    rw [afterEdit_of_name h]
    exact setDisplay_of_name h
  refused edit h := ⟨⟨_, setDisplay_of_unknown h, rfl⟩, afterEdit_of_unknown h⟩
  swapped front a b back hedits h := by
    rw [hedits]
    exact afterEdits_swap h s front back

/-- The longest session there is, an unknown field, and a period out of its range. -/
example :
    let t := initial.afterEdits
      [⟨"sessionTimeout", Int64.maxValue⟩, ⟨"bogus", 1⟩, ⟨"baselineDataset", 15⟩]
    (t.display? "sessionTimeout").map Int64.toInt = some 2562047788015 ∧
      t.validate = [⟨"baselineDataset", "must be between 1 and 14"⟩] := by
  decide +kernel

end SystemSettings

end FleetConsole
