import FleetConsole.Proofs.RowAccounting

/-! Rows that repeat an id do not count, whatever else they say. Wherever such rows are put into a
batch behind the first row of their id, the tree stays the same, and all that is new in the remarks
is one for each of them. -/
namespace FleetConsole.Tree

/-- `result` is `rows` with the rows `repeats` put in, each behind a row with its id; `seen` are the
ids that have gone before. -/
inductive WithRepeats :
    (seen : List ResourceId) → (rows repeats result : List Resource) → Prop
  | nil (seen : List ResourceId) : WithRepeats seen [] [] []
  | row {seen : List ResourceId} {rows repeats result : List Resource} (r : Resource)
      (rest : WithRepeats (r.id :: seen) rows repeats result) :
      WithRepeats seen (r :: rows) repeats (r :: result)
  | again {seen : List ResourceId} {rows repeats result : List Resource} (r : Resource)
      (behind : r.id ∈ seen) (rest : WithRepeats seen rows repeats result) :
      WithRepeats seen rows (r :: repeats) (r :: result)

section Rows

variable {rows repeats result : List Resource}

theorem splitRepeats_of_mem {seen : List ResourceId} {r : Resource} (h : r.id ∈ seen)
    (rest : List Resource) : splitRepeats seen (r :: rest) =
      ((splitRepeats seen rest).1, r.id :: (splitRepeats seen rest).2) := by
  simp [splitRepeats, h]

theorem splitRepeats_of_notMem {seen : List ResourceId} {r : Resource} (h : r.id ∉ seen)
    (rest : List Resource) : splitRepeats seen (r :: rest) =
      (r :: (splitRepeats (r.id :: seen) rest).1, (splitRepeats (r.id :: seen) rest).2) := by
  simp [splitRepeats, h]

/-- What is put in goes to the repetitions, and all else stays. -/
theorem splitRepeats_of_withRepeats {behind : List ResourceId}
    (h : WithRepeats behind rows repeats result) {seen : List ResourceId}
    (hseen : ∀ id, id ∈ seen ↔ id ∈ behind) :
    (splitRepeats seen result).1 = (splitRepeats seen rows).1 ∧
      (splitRepeats seen result).2.Perm ((splitRepeats seen rows).2 ++ repeats.map Resource.id) := by
  induction h generalizing seen with
  | nil => exact ⟨rfl, .refl _⟩
  | @row behind rows repeats result r rest ih =>
    by_cases hr : r.id ∈ seen
    · have hsame (id : ResourceId) : id ∈ seen ↔ id ∈ r.id :: behind := by
        rw [List.mem_cons, ← hseen]
        refine ⟨.inr, ?_⟩
        rintro (rfl | hid)
        · exact hr
        · exact hid
      obtain ⟨hfirst, hagain⟩ := ih hsame
      rw [splitRepeats_of_mem hr, splitRepeats_of_mem hr]
      exact ⟨hfirst, hagain.cons r.id⟩
    · have hsame (id : ResourceId) : id ∈ r.id :: seen ↔ id ∈ r.id :: behind := by
        rw [List.mem_cons, List.mem_cons, hseen]
      obtain ⟨hfirst, hagain⟩ := ih hsame
      rw [splitRepeats_of_notMem hr, splitRepeats_of_notMem hr]
      exact ⟨congrArg (r :: ·) hfirst, hagain⟩
  | again r behind rest ih =>
    obtain ⟨hfirst, hagain⟩ := ih hseen
    rw [splitRepeats_of_mem ((hseen r.id).mpr behind)]
    refine ⟨hfirst, (hagain.cons r.id).trans ?_⟩
    rw [List.map_cons]
    exact List.perm_middle.symm

theorem firstRows_of_withRepeats (h : WithRepeats [] rows repeats result) :
    firstRows result = firstRows rows :=
  (splitRepeats_of_withRepeats h fun _ => Iff.rfl).1

theorem placedRows_congr (h : firstRows result = firstRows rows) :
    placedRows result = placedRows rows := by
  rw [placedRows, placedRows, Surroundings.placement, Surroundings.placement, h]

theorem circularRows_congr (h : firstRows result = firstRows rows) :
    circularRows result = circularRows rows := by
  rw [circularRows, circularRows, Surroundings.placement, Surroundings.placement, h]

end Rows

namespace Build

/-- Builds that differ in remarks on repeated rows only. -/
structure Alike (b b' : Build) : Prop where
  nodes : b.nodes = b'.nodes
  remarks : b.diagnostics.filter (fun d => !d.isDuplicate) =
    b'.diagnostics.filter (fun d => !d.isDuplicate)

end Build

namespace Surroundings

variable {s : Surroundings}

section Builds

variable {rows repeats result : List Resource}

theorem noted_filter {P : Diagnostic → Bool} {new : Option Diagnostic}
    (h : ∀ d, new = some d → P d = true) (remarks : List Diagnostic) :
    (noted remarks new).filter P = noted (remarks.filter P) new := by
  cases new with
  | none => rfl
  | some d =>
    have hd := h d rfl
    by_cases hmem : d ∈ remarks
    · simp [noted, hmem, hd]
    · simp [noted, hmem, hd]

theorem isDuplicate_of_remark? {r : Resource} {anchor : Option ResourceId} {d : Diagnostic}
    (h : s.remark? r anchor = some d) : d.isDuplicate = false := by
  have homission := isOmission_of_remark? h
  rw [Diagnostic.isOmission, Bool.or_eq_false_iff] at homission
  exact homission.1

theorem anchor?_congr {b b' : Build} (h : b.nodes = b'.nodes) (r : Resource) :
    s.anchor? b r = s.anchor? b' r := by
  simp only [anchor?, isPresent, Build.hasNode, h]

/-- Placing a row does not look at the remarks on repeated rows, and makes none. -/
theorem alike_place (batch : List Resource) {b b' : Build} (h : b.Alike b') (r : Resource) :
    (s.place batch b r).Alike (s.place batch b' r) where
  nodes := by rw [nodes_place, nodes_place, anchor?_congr h.nodes, h.nodes]
  remarks := by
    have hnew (d : Diagnostic) (hd : s.remark? r (s.anchor? b' r) = some d) :
        (!d.isDuplicate) = true := by
      rw [isDuplicate_of_remark? hd]
      rfl
    rw [diagnostics_place, diagnostics_place, anchor?_congr h.nodes, noted_filter hnew,
      noted_filter hnew, h.remarks]

theorem alike_foldl_place (batch placed : List Resource) {b b' : Build} (h : b.Alike b') :
    (placed.foldl (s.place batch) b).Alike (placed.foldl (s.place batch) b') := by
  induction placed generalizing b b' with
  | nil => exact h
  | cons r placed ih => exact ih (alike_place batch h r)

theorem alike_beginning (h : firstRows result = firstRows rows) :
    (beginning result).Alike (beginning rows) where
  nodes := rfl
  remarks := by
    have hrepeats (ids : List ResourceId) :
        (ids.map Diagnostic.duplicateEntity).filter (fun d => !d.isDuplicate) = [] := by
      rw [List.filter_map, List.map_eq_nil_iff]
      exact List.filter_eq_nil_iff.mpr (by simp [Diagnostic.isDuplicate])
    rw [beginning, beginning, List.filter_append, List.filter_append, hrepeats, hrepeats,
      circularRows_congr h]

/-- What a build says and shows depends on the first rows only, remarks on repeated rows apart. -/
theorem alike_build (h : firstRows result = firstRows rows) :
    (s.build result).Alike (s.build rows) := by
  have hplacing : (s.placing result (placedRows result)).Alike
      (s.placing rows (placedRows rows)) := by
    rw [placing, placing, h, placedRows_congr h]
    exact alike_foldl_place _ _ (alike_beginning h)
  exact ⟨congrArg (disambiguate s.catalog) hplacing.nodes, hplacing.remarks⟩

theorem duplicates_build (rows : List Resource) :
    (s.build rows).diagnostics.filter Diagnostic.isDuplicate =
      (splitRepeats [] rows).2.map Diagnostic.duplicateEntity := by
  have homission : (s.build rows).diagnostics.filter Diagnostic.isDuplicate =
      ((s.build rows).diagnostics.filter Diagnostic.isOmission).filter Diagnostic.isDuplicate := by
    rw [List.filter_filter]
    refine List.filter_congr fun d _ => ?_
    cases hd : d.isDuplicate <;> simp [Diagnostic.isOmission, hd]
  rw [homission, omissions_build, beginning, List.filter_append, List.filter_map, List.filter_map,
    List.filter_eq_self.mpr (by simp [Diagnostic.isDuplicate]),
    List.filter_eq_nil_iff.mpr (by simp [Diagnostic.isDuplicate]), List.map_nil, List.append_nil]

open scoped List in
theorem diagnostics_perm_of_withRepeats (h : WithRepeats [] rows repeats result) :
    (s.build result).diagnostics ~
      (s.build rows).diagnostics ++ repeats.map fun r => .duplicateEntity r.id := by
  let new : List Diagnostic := repeats.map fun r => .duplicateEntity r.id
  have hrepeats : (s.build result).diagnostics.filter Diagnostic.isDuplicate ~
      (s.build rows).diagnostics.filter Diagnostic.isDuplicate ++ new := by
    have hids := (splitRepeats_of_withRepeats h fun _ => Iff.rfl).2.map Diagnostic.duplicateEntity
    rwa [List.map_append, ← s.duplicates_build, ← s.duplicates_build, List.map_map] at hids
  have hothers := (s.alike_build (firstRows_of_withRepeats h)).remarks
  have hsplit (b : Build) : b.diagnostics.filter Diagnostic.isDuplicate ++
      b.diagnostics.filter (fun d => !d.isDuplicate) ~ b.diagnostics :=
    List.filter_append_perm _ _
  calc
    (s.build result).diagnostics
    _ ~ (s.build result).diagnostics.filter Diagnostic.isDuplicate ++
          (s.build rows).diagnostics.filter (fun d => !d.isDuplicate) := by
      rw [← hothers]
      exact (hsplit _).symm
    _ ~ ((s.build rows).diagnostics.filter Diagnostic.isDuplicate ++ new) ++
          (s.build rows).diagnostics.filter (fun d => !d.isDuplicate) := hrepeats.append_right _
    _ ~ ((s.build rows).diagnostics.filter Diagnostic.isDuplicate ++
          (s.build rows).diagnostics.filter (fun d => !d.isDuplicate)) ++ new := by
      rw [List.append_assoc, List.append_assoc]
      exact List.perm_append_comm.append_left _
    _ ~ (s.build rows).diagnostics ++ new := (hsplit _).append_right _

end Builds

/-- Rows put in behind the first row of their id change neither the nodes of a build nor what it has
to say about anything else; each is remarked once. -/
theorem repeated_rows_only_remarked (s : Surroundings) (rows repeats result : List Resource)
    (h : WithRepeats [] rows repeats result) :
    (s.build result).nodes = (s.build rows).nodes ∧
      (s.build result).diagnostics.filter (fun d => !d.isDuplicate) =
        (s.build rows).diagnostics.filter (fun d => !d.isDuplicate) ∧
      (s.build result).diagnostics.Perm
        ((s.build rows).diagnostics ++ repeats.map fun r => .duplicateEntity r.id) :=
  ⟨(s.alike_build (firstRows_of_withRepeats h)).nodes,
    (s.alike_build (firstRows_of_withRepeats h)).remarks, diagnostics_perm_of_withRepeats h⟩

namespace MovedHost

open Inventory

/-- The host once more, below its own child: a circle of parents, if it counted. -/
def movedHost : Resource := Demo.resource 10001 "host" Demo.cpu0 4 .down

def looseCpu : Resource := Demo.resource 10002 "cpu" none 99 .unknown

def rows : List Resource := [Demo.host, Demo.cpu0, Demo.cpu1]

def result : List Resource := [Demo.host, movedHost, Demo.cpu0, movedHost, Demo.cpu1, looseCpu]

def surroundings : Surroundings := ofCatalog Demo.catalog

theorem withRepeats : WithRepeats [] rows [movedHost, movedHost, looseCpu] result := by
  refine .row Demo.host (.again movedHost ?_ (.row Demo.cpu0 (.again movedHost ?_ (.row Demo.cpu1
    (.again looseCpu ?_ (.nil _))))))
  all_goals decide

theorem repeated_rows_only_remarked_moved_host :
    WithRepeats [] rows [movedHost, movedHost, looseCpu] result ∧
      (surroundings.build result).nodes = (surroundings.build rows).nodes ∧
      (surroundings.build result).diagnostics.filter (fun d => !d.isDuplicate) =
        (surroundings.build rows).diagnostics.filter (fun d => !d.isDuplicate) ∧
      (surroundings.build result).diagnostics.Perm ((surroundings.build rows).diagnostics ++
        [.duplicateEntity ⟨10001⟩, .duplicateEntity ⟨10001⟩, .duplicateEntity ⟨10002⟩]) :=
  ⟨withRepeats, repeated_rows_only_remarked surroundings _ _ _ withRepeats⟩

end MovedHost

end Surroundings

end FleetConsole.Tree
