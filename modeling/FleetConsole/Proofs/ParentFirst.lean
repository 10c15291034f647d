import Mathlib
import FleetConsole.Tree.ParentFirst

/-! Laws of the arrangement that puts parents first. It takes the first position again and again
whose parent is no longer waiting, and the pass that keeps count of who waits for whom comes to the
same (`ofLinks_eq`). Nothing is lost, a position follows its parent, siblings stay in their order,
and what is left over waits for something else that is left over. -/
namespace FleetConsole.Tree.ParentFirst

/-- Whether the parent of position `i` is no longer waiting. -/
def isReady (parentOf : Nat → Option Nat) (waiting : List Nat) (i : Nat) : Bool :=
  (parentOf i).all fun p => !waiting.contains p

/-- Takes the first ready position until none is left. -/
def arrange (parentOf : Nat → Option Nat) (waiting : List Nat) : ParentFirst :=
  match _h : waiting.find? (isReady parentOf waiting) with
  | none => ⟨[], waiting⟩
  | some i =>
    let rest := arrange parentOf (waiting.erase i)
    ⟨i :: rest.ordered, rest.cyclic⟩
termination_by waiting.length
decreasing_by
  have hmem := List.mem_of_find?_eq_some _h
  have hlen := List.length_erase_of_mem hmem
  have hpos := List.length_pos_of_mem hmem
  omega

section Arrange

variable {parentOf : Nat → Option Nat}

theorem arrange_of_none {waiting : List Nat}
    (h : waiting.find? (isReady parentOf waiting) = none) :
    arrange parentOf waiting = ⟨[], waiting⟩ := by
  rw [arrange]
  split
  · rfl
  · simp_all

theorem arrange_of_some {waiting : List Nat} {i : Nat}
    (h : waiting.find? (isReady parentOf waiting) = some i) :
    arrange parentOf waiting =
      ⟨i :: (arrange parentOf (waiting.erase i)).ordered,
        (arrange parentOf (waiting.erase i)).cyclic⟩ := by
  rw [arrange]
  split
  · simp_all
  · rename_i j hj
    obtain rfl : i = j := Option.some.inj (h.symm.trans hj)
    rfl

theorem isReady_congr {waiting : List Nat} {i j : Nat} (h : parentOf i = parentOf j) :
    isReady parentOf waiting i = isReady parentOf waiting j := by
  rw [isReady, isReady, h]

/-- Every position is arranged or left over, once. -/
theorem arrange_perm (waiting : List Nat) :
    ((arrange parentOf waiting).ordered ++ (arrange parentOf waiting).cyclic).Perm waiting := by
  induction waiting using arrange.induct parentOf with
  | case1 waiting h => simp [arrange_of_none h]
  | case2 waiting i h ih =>
    rw [arrange_of_some h]
    exact (ih.cons i).trans (List.perm_cons_erase (List.mem_of_find?_eq_some h)).symm

/-- Positions with one parent become ready together, so they are arranged in the order in which
they wait. -/
theorem filter_arrange {parent : Option Nat} {P : Nat → Bool}
    (hP : ∀ i, P i = true → parentOf i = parent) (waiting : List Nat) :
    (arrange parentOf waiting).ordered.filter P ++ (arrange parentOf waiting).cyclic.filter P =
      waiting.filter P := by
  induction waiting using arrange.induct parentOf with
  | case1 waiting h => simp [arrange_of_none h]
  | case2 waiting i h ih =>
    obtain ⟨hready, before, after, hwait, hbefore⟩ := List.find?_eq_some_iff_append.mp h
    have hnot : ∀ j ∈ before, isReady parentOf waiting j = false := by simpa using hbefore
    have hi : i ∉ before := fun hmem => by simp [hnot i hmem] at hready
    have herase : waiting.erase i = before ++ after := by
      rw [hwait, List.erase_append_right _ hi, List.erase_cons_head]
    rw [arrange_of_some h]
    by_cases hPi : P i = true
    · -- a position before `i` with its parent would have been ready earlier
      have hnone : before.filter P = [] := by
        refine List.filter_eq_nil_iff.mpr fun j hj hPj => ?_
        have hsame : parentOf j = parentOf i := (hP j hPj).trans (hP i hPi).symm
        rw [← isReady_congr hsame, hnot j hj] at hready
        exact absurd hready (by simp)
      rw [List.filter_cons_of_pos hPi, List.cons_append, ih, herase, hwait]
      simp [hnone, hPi]
    · rw [List.filter_cons_of_neg hPi, ih, herase, hwait]
      simp [hPi]

/-- What is left over waits for a parent that is left over. -/
theorem parent_of_mem_cyclic (waiting : List Nat) {i : Nat}
    (hi : i ∈ (arrange parentOf waiting).cyclic) :
    ∃ p, parentOf i = some p ∧ p ∈ (arrange parentOf waiting).cyclic := by
  induction waiting using arrange.induct parentOf with
  | case1 waiting h =>
    rw [arrange_of_none h] at hi ⊢
    have hwaits : isReady parentOf waiting i = false := by simpa using List.find?_eq_none.mp h i hi
    cases hp : parentOf i with
    | none => simp [isReady, hp] at hwaits
    | some p => exact ⟨p, rfl, by simpa [isReady, hp] using hwaits⟩
  | case2 waiting j h ih =>
    rw [arrange_of_some h] at hi ⊢
    exact ih hi

theorem parent_mem_before (waiting : List Nat) {before after : List Nat} {i p : Nat}
    (h : (arrange parentOf waiting).ordered = before ++ i :: after)
    (hp : parentOf i = some p) (hwait : p ∈ waiting) : p ∈ before := by
  induction waiting using arrange.induct parentOf generalizing before with
  | case1 waiting hnone => simp [arrange_of_none hnone] at h
  | case2 waiting j hsome ih =>
    rw [arrange_of_some hsome] at h
    cases before with
    | nil =>
      obtain rfl : j = i := (List.cons.inj h).1
      have hready := List.find?_some hsome
      simp [isReady, hp, hwait] at hready
    | cons k before =>
      obtain ⟨rfl, hrest⟩ := List.cons.inj h
      by_cases hpj : p = j
      · simp [hpj]
      · exact List.mem_cons_of_mem _ (ih hrest ((List.mem_erase_of_ne hpj).mpr hwait))

/-- The position that goes first is the least of those that can. -/
theorem le_of_isReady {waiting : List Nat} (hsorted : waiting.Pairwise (· < ·)) {i k : Nat}
    (hi : waiting.find? (isReady parentOf waiting) = some i) (hk : k ∈ waiting)
    (hready : isReady parentOf waiting k = true) : i ≤ k := by
  obtain ⟨-, before, after, hsplit, hbefore⟩ := List.find?_eq_some_iff_append.mp hi
  rw [hsplit] at hk hsorted
  rcases List.mem_append.mp hk with hmem | hmem
  · have hnot := hbefore k hmem
    simp [hready] at hnot
  · rcases List.mem_cons.mp hmem with rfl | hafter
    · exact le_rfl
    · exact (List.rel_of_pairwise_cons (List.pairwise_append.mp hsorted).2.1 hafter).le

end Arrange

namespace Pass

variable {parents : List (Option Nat)}

/-- The positions that have not gone. -/
def waiting (pass : Pass parents) : List Nat := positions (!·) pass.emitted

theorem pairwise_waiting (pass : Pass parents) : pass.waiting.Pairwise (· < ·) :=
  List.pairwise_lt_range.sublist positions_sublist

theorem mem_waiting_iff {pass : Pass parents} {i : Nat} :
    i ∈ pass.waiting ↔ pass.emitted[i]? = some false :=
  mem_positions_not

theorem waiting_start {w : Waits} (hw : w = .ofParents parents) :
    (start w hw).waiting = List.range parents.length := by
  refine (List.Perm.eq_of_pairwise' (pairwise_waiting _) List.pairwise_lt_range ?_)
  refine (List.perm_ext_iff_of_nodup (pairwise_waiting _).nodup List.nodup_range).mpr fun i => ?_
  rw [mem_waiting_iff, start]
  simp [List.getElem?_replicate]

theorem waiting_emit (pass : Pass parents) {w : Waits} (hw : w = .ofParents parents) {i : Nat}
    (hi : i ∈ pass.ready) : (pass.emit w hw i hi).waiting = pass.waiting.erase i := by
  have hnodup := (pairwise_waiting pass).nodup
  refine List.Perm.eq_of_pairwise' (pairwise_waiting _)
    ((pairwise_waiting pass).sublist List.erase_sublist) ?_
  refine (List.perm_ext_iff_of_nodup (pairwise_waiting _).nodup (hnodup.erase i)).mpr fun j => ?_
  rw [hnodup.mem_erase_iff, mem_waiting_iff, mem_waiting_iff, emit, getElem?_set_eq_false_iff]

theorem run_of_none {w : Waits} (hw : w = .ofParents parents) {pass : Pass parents}
    (h : pass.ready.min? = none) : run w hw pass = pass := by
  rw [run]
  split
  · rfl
  · simp_all

theorem run_of_some {w : Waits} (hw : w = .ofParents parents) {pass : Pass parents} {i : Nat}
    (h : pass.ready.min? = some i) :
    run w hw pass = run w hw (pass.emit w hw i (List.min?_mem h)) := by
  rw [run]
  split
  · simp_all
  · rename_i j hj
    obtain rfl : i = j := Option.some.inj (h.symm.trans hj)
    rfl

variable (hparents : ∀ i p : Nat, parents[i]? = some (some p) → p < parents.length)

include hparents

/-- What is kept ready is what is ready. -/
theorem mem_ready_iff_isReady (pass : Pass parents) {i : Nat} : i ∈ pass.ready ↔
    i ∈ pass.waiting ∧ isReady (fun i => (parents[i]?).join) pass.waiting i = true := by
  have hgone {p : Nat} (hp : parents[i]? = some (some p)) :
      pass.emitted[p]? = some true ↔ p ∉ pass.waiting := by
    have hlt : p < pass.emitted.length := pass.length_emitted ▸ hparents i p hp
    rw [mem_waiting_iff, List.getElem?_eq_getElem hlt]
    simp
  have hready : isReady (fun i => (parents[i]?).join) pass.waiting i = true ↔
      ∀ p, parents[i]? = some (some p) → p ∉ pass.waiting := by
    simp [isReady, Option.all_eq_true, Option.join_eq_some_iff]
  rw [pass.mem_ready_iff, hready, mem_waiting_iff]
  exact and_congr_right fun _ => forall₂_congr fun p hp => hgone hp

/-- The least of what is kept ready is the first in line that is ready. -/
theorem find?_isReady {pass : Pass parents} {i : Nat} (h : pass.ready.min? = some i) :
    pass.waiting.find? (isReady (fun i => (parents[i]?).join) pass.waiting) = some i := by
  obtain ⟨hi, hleast⟩ := List.min?_eq_some_iff.mp h
  obtain ⟨hwaiting, hready⟩ := (mem_ready_iff_isReady hparents pass).mp hi
  cases hfirst : pass.waiting.find? (isReady (fun i => (parents[i]?).join) pass.waiting) with
  | none =>
    have hnot := List.find?_eq_none.mp hfirst i hwaiting
    exact absurd hready hnot
  | some k =>
    have hle := le_of_isReady (pairwise_waiting pass) hfirst hwaiting hready
    have hk := (mem_ready_iff_isReady hparents pass).mpr
      ⟨List.mem_of_find?_eq_some hfirst, List.find?_some hfirst⟩
    rw [le_antisymm hle (hleast k hk)]

/-- A pass arranges what is waiting, behind what has gone already. -/
theorem run_eq {w : Waits} (hw : w = .ofParents parents) (pass : Pass parents) :
    (run w hw pass).ordered =
        pass.ordered ++ (arrange (fun i => (parents[i]?).join) pass.waiting).ordered ∧
      (run w hw pass).waiting = (arrange (fun i => (parents[i]?).join) pass.waiting).cyclic := by
  induction pass using run.induct w hw with
  | case1 pass hnone =>
    have hempty : pass.ready = [] := List.min?_eq_none_iff.mp hnone
    have hfirst : pass.waiting.find? (isReady (fun i => (parents[i]?).join) pass.waiting) =
        none := by
      refine List.find?_eq_none.mpr fun i hi hready => ?_
      have hmem := (mem_ready_iff_isReady hparents pass).mpr ⟨hi, hready⟩
      simp [hempty] at hmem
    rw [run_of_none hw hnone, arrange_of_none hfirst]
    exact ⟨(List.append_nil _).symm, rfl⟩
  | case2 pass i hleast ih =>
    rw [run_of_some hw hleast, ih.1, ih.2, waiting_emit,
      arrange_of_some (find?_isReady hparents hleast)]
    exact ⟨List.append_assoc _ _ _, rfl⟩

end Pass

section Keys

variable {K : Type} [DecidableEq K]

theorem getElem?_of_lastIndex {keys : List K} {key : K} {i : Nat}
    (h : lastIndex keys key = some i) : keys[i]? = some key := by
  obtain ⟨j, hj, rfl⟩ := Option.map_eq_some_iff.mp h
  obtain ⟨hlt, hkey, -⟩ := List.findIdx?_eq_some_iff_getElem.mp hj
  rw [List.length_reverse] at hlt
  rw [List.getElem_reverse] at hkey
  exact List.getElem?_eq_some_iff.mpr ⟨by omega, by simpa using hkey⟩

theorem lastIndex_eq_none_iff {keys : List K} {key : K} :
    lastIndex keys key = none ↔ key ∉ keys := by
  simp only [lastIndex, Option.map_eq_none_iff, List.findIdx?_eq_none_iff, List.mem_reverse,
    decide_eq_false_iff_not]
  exact List.forall_mem_ne'

/-- The parent's position, as `ofLinks` looks it up. -/
def parentAt (links : List (K × Option K)) (i : Nat) : Option Nat :=
  links[i]?.bind fun link => link.2.bind (lastIndex (links.map (·.1)))

theorem getElem?_parents (links : List (K × Option K)) (i : Nat) :
    ((parents links)[i]?).join = parentAt links i := by
  simp only [parents, parentAt, List.getElem?_map]
  cases links[i]? <;> rfl

theorem lt_length_parents (links : List (K × Option K)) (i p : Nat)
    (h : (parents links)[i]? = some (some p)) : p < (parents links).length := by
  have hparent : parentAt links i = some p := by rw [← getElem?_parents, h, Option.join_some]
  obtain ⟨link, -, hlink⟩ := Option.bind_eq_some_iff.mp hparent
  obtain ⟨key, -, hkey⟩ := Option.bind_eq_some_iff.mp hlink
  have hlt := (List.getElem?_eq_some_iff.mp (getElem?_of_lastIndex hkey)).1
  simpa [parents] using hlt

/-- The pass that keeps count of who waits for whom takes the first position again and again whose
parent is no longer waiting. -/
theorem ofLinks_eq (links : List (K × Option K)) :
    ofLinks links = arrange (parentAt links) (List.range links.length) := by
  obtain ⟨hordered, hcyclic⟩ := Pass.run_eq (lt_length_parents links) rfl
    (Pass.start (.ofParents (parents links)) rfl)
  have hlength : (parents links).length = links.length := by simp [parents]
  rw [Pass.waiting_start, hlength] at hordered hcyclic
  simp only [getElem?_parents] at hordered hcyclic
  rw [ofLinks, ← Pass.waiting, hordered, hcyclic]
  rfl

end Keys

end FleetConsole.Tree.ParentFirst
