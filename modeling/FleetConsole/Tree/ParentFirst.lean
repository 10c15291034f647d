/-! Items that name a parent, arranged so that parents come first. Among the items whose parent is
out of the way the first in the input goes first, so the input's order stays wherever it can. -/
namespace FleetConsole.Tree

/-- Positions in the order of arrangement, and those that could not be arranged because they lie
on a circle of parents or below one. -/
structure ParentFirst where
  ordered : List Nat
  cyclic : List Nat
  deriving DecidableEq, Repr

namespace ParentFirst

/-- The position of the last item with the key. -/
def lastIndex {K : Type} [DecidableEq K] (keys : List K) (key : K) : Option Nat :=
  (keys.reverse.findIdx? (· = key)).map fun i => keys.length - 1 - i

/-- The position of each item's parent. A parent outside the list counts as none. -/
def parents {K : Type} [DecidableEq K] (links : List (K × Option K)) : List (Option Nat) :=
  let keys := links.map (·.1)
  links.map fun link => link.2.bind (lastIndex keys)

/-- The positions of the items with a property, in ascending order. -/
def positions {α : Type} (p : α → Bool) (l : List α) : List Nat :=
  (l.zipIdx.filter fun item => p item.1).map (·.2)

section Positions

variable {α : Type} {p : α → Bool} {l : List α}

theorem mem_positions {i : Nat} : i ∈ positions p l ↔ ∃ a, l[i]? = some a ∧ p a = true := by
  simp [positions, List.mem_zipIdx_iff_getElem?]

theorem mem_positions_not {flags : List Bool} {i : Nat} :
    i ∈ positions (!·) flags ↔ flags[i]? = some false := by
  simp [mem_positions]

theorem positions_sublist : (positions p l).Sublist (List.range l.length) := by
  have hall := (List.filter_sublist (p := fun item : α × Nat => p item.1) (l := l.zipIdx)).map (·.2)
  rwa [List.zipIdx_map_snd, ← List.range_eq_range'] at hall

end Positions

theorem getElem?_set_eq_true_iff {flags : List Bool} {i j : Nat} (hi : i < flags.length) :
    (flags.set i true)[j]? = some true ↔ j = i ∨ flags[j]? = some true := by
  by_cases h : j = i
  · simp [h, hi]
  · simp [h, Ne.symm h]

theorem getElem?_set_eq_false_iff {flags : List Bool} {i j : Nat} :
    (flags.set i true)[j]? = some false ↔ j ≠ i ∧ flags[j]? = some false := by
  by_cases h : j = i
  · simp [h, List.getElem?_set]
  · simp [h, Ne.symm h]

/-- Who waits for whom. -/
structure Waits where
  /-- Whether the position waits for a parent. -/
  waiting : List Bool
  /-- The positions that wait for each one, in their order. -/
  children : List (List Nat)

namespace Waits

def nobody (count : Nat) : Waits := ⟨.replicate count false, .replicate count []⟩

/-- Notes the parent of a position. -/
def note (w : Waits) (i : Nat) : Option Nat → Waits
  | none => w
  | some p => ⟨w.waiting.set i true, w.children.modify p (· ++ [i])⟩

def ofParents (parents : List (Option Nat)) : Waits :=
  parents.zipIdx.foldl (fun w item => w.note item.2 item.1) (nobody parents.length)

def childrenOf (w : Waits) (p : Nat) : List Nat := w.children[p]?.getD []

theorem length_children_note (w : Waits) (i : Nat) (parent : Option Nat) :
    (w.note i parent).children.length = w.children.length := by
  cases parent <;> simp [note]

theorem childrenOf_note {w : Waits} {p : Nat} (hp : p < w.children.length) (i : Nat)
    (parent : Option Nat) :
    (w.note i parent).childrenOf p = w.childrenOf p ++ if parent = some p then [i] else [] := by
  cases parent with
  | none => simp [note]
  | some q =>
    by_cases hq : q = p
    · simp [note, childrenOf, hq, hp]
    · simp [note, childrenOf, hq]

theorem waiting_note (w : Waits) (i j : Nat) (parent : Option Nat) :
    (w.note i parent).waiting[j]? = some false ↔
      w.waiting[j]? = some false ∧ (i = j → parent = none) := by
  cases parent with
  | none => simp [note]
  | some q =>
    by_cases hij : i = j
    · simp [note, hij, List.getElem?_set]
    · simp [note, hij]

theorem childrenOf_foldl_note {w : Waits} {p : Nat} (hp : p < w.children.length)
    (items : List (Option Nat × Nat)) :
    (items.foldl (fun w item => w.note item.2 item.1) w).childrenOf p =
      w.childrenOf p ++ (items.filter fun item => item.1 = some p).map (·.2) := by
  induction items generalizing w with
  | nil => simp
  | cons item rest ih =>
    rw [List.foldl_cons, ih (by rwa [length_children_note]), childrenOf_note hp, List.append_assoc]
    by_cases h : item.1 = some p <;> simp [h]

theorem waiting_foldl_note (w : Waits) (items : List (Option Nat × Nat)) (j : Nat) :
    (items.foldl (fun w item => w.note item.2 item.1) w).waiting[j]? = some false ↔
      w.waiting[j]? = some false ∧ ∀ item ∈ items, item.2 = j → item.1 = none := by
  induction items generalizing w with
  | nil => simp
  | cons item rest ih => rw [List.foldl_cons, ih, waiting_note, List.forall_mem_cons, and_assoc]

variable {parents : List (Option Nat)}

theorem childrenOf_ofParents {p : Nat} (hp : p < parents.length) :
    (ofParents parents).childrenOf p = positions (· = some p) parents := by
  rw [ofParents, childrenOf_foldl_note (by simpa [nobody] using hp)]
  simp [nobody, childrenOf, hp, positions]

theorem waiting_ofParents {i : Nat} :
    (ofParents parents).waiting[i]? = some false ↔ parents[i]? = some none := by
  rw [ofParents, waiting_foldl_note]
  simp only [nobody, List.getElem?_replicate, Prod.forall, List.mem_zipIdx_iff_getElem?]
  constructor
  · rintro ⟨hlt, hnone⟩
    have hi : i < parents.length := by simpa using hlt
    have hget := List.getElem?_eq_getElem hi
    rw [hget, hnone _ i hget rfl]
  · intro h
    refine ⟨by simp [(List.getElem?_eq_some_iff.mp h).1], ?_⟩
    rintro parent _ hparent rfl
    exact Option.some.inj (hparent.symm.trans h)

end Waits

/-- How far an arrangement has come. -/
structure Pass (parents : List (Option Nat)) where
  /-- The positions that can go next. -/
  ready : List Nat
  /-- Whether the position has gone. -/
  emitted : List Bool
  ordered : List Nat
  length_emitted : emitted.length = parents.length
  nodup_ready : ready.Nodup
  mem_ready_iff : ∀ i : Nat, i ∈ ready ↔ emitted[i]? = some false ∧
    ∀ p : Nat, parents[i]? = some (some p) → emitted[p]? = some true
  parent_emitted : ∀ i p : Nat, emitted[i]? = some true → parents[i]? = some (some p) →
    emitted[p]? = some true

namespace Pass

variable {parents : List (Option Nat)}

/-- At first those are ready that wait for nobody. -/
def start (w : Waits) (hw : w = .ofParents parents) : Pass parents where
  ready := positions (!·) w.waiting
  emitted := .replicate parents.length false
  ordered := []
  length_emitted := List.length_replicate
  nodup_ready := positions_sublist.nodup List.nodup_range
  mem_ready_iff i := by
    rw [mem_positions_not, hw, Waits.waiting_ofParents]
    constructor
    · intro h
      have hlt := (List.getElem?_eq_some_iff.mp h).1
      exact ⟨by simp [hlt], fun p hp => by cases h.symm.trans hp⟩
    · rintro ⟨hlt, hgone⟩
      have hi : i < parents.length := by simpa [List.getElem?_replicate] using hlt
      have hget := List.getElem?_eq_getElem hi
      cases hparent : parents[i] with
      | none => rw [hget, hparent]
      | some p =>
        have hp := hgone p (hget.trans (congrArg some hparent))
        simp [List.getElem?_replicate] at hp
  parent_emitted i p h := by simp [List.getElem?_replicate] at h

theorem lt_length_emitted {pass : Pass parents} {i : Nat} (h : i ∈ pass.ready) :
    i < pass.emitted.length :=
  (List.getElem?_eq_some_iff.mp ((pass.mem_ready_iff i).mp h).1).1

theorem mem_childrenOf {pass : Pass parents} {w : Waits} (hw : w = .ofParents parents) {i j : Nat}
    (hi : i ∈ pass.ready) : j ∈ w.childrenOf i ↔ parents[j]? = some (some i) := by
  rw [hw, Waits.childrenOf_ofParents (pass.length_emitted ▸ lt_length_emitted hi), mem_positions]
  simp

/-- Those that wait for a position that is ready are neither ready nor gone. -/
theorem emitted_child {pass : Pass parents} {i k : Nat} (hi : i ∈ pass.ready)
    (hk : parents[k]? = some (some i)) : pass.emitted[k]? = some false ∧ k ∉ pass.ready := by
  obtain ⟨hfalse, -⟩ := (pass.mem_ready_iff i).mp hi
  have hlt : k < pass.emitted.length := by
    rw [pass.length_emitted]
    exact (List.getElem?_eq_some_iff.mp hk).1
  refine ⟨?_, fun hready => ?_⟩
  · cases hflag : pass.emitted[k] with
    | false => rw [List.getElem?_eq_getElem hlt, hflag]
    | true =>
      have hgone := pass.parent_emitted k i (by rw [List.getElem?_eq_getElem hlt, hflag]) hk
      simp [hfalse] at hgone
  · have hgone := ((pass.mem_ready_iff k).mp hready).2 i hk
    simp [hfalse] at hgone

/-- A position goes, and those that wait for it become ready. -/
def emit (pass : Pass parents) (w : Waits) (hw : w = .ofParents parents) (i : Nat)
    (hi : i ∈ pass.ready) : Pass parents where
  ready := pass.ready.erase i ++ w.childrenOf i
  emitted := pass.emitted.set i true
  ordered := pass.ordered ++ [i]
  length_emitted := by rw [List.length_set, pass.length_emitted]
  nodup_ready := by
    refine List.nodup_append.mpr ⟨pass.nodup_ready.erase i, ?_, ?_⟩
    · rw [hw, Waits.childrenOf_ofParents (pass.length_emitted ▸ lt_length_emitted hi)]
      exact positions_sublist.nodup List.nodup_range
    · rintro j hj k hk rfl
      have hparent := (mem_childrenOf hw hi).mp hk
      exact (emitted_child hi hparent).2 (List.mem_of_mem_erase hj)
  mem_ready_iff j := by
    have hlt := lt_length_emitted hi
    rw [List.mem_append, pass.nodup_ready.mem_erase_iff, mem_childrenOf hw hi,
      getElem?_set_eq_false_iff]
    constructor
    · rintro (⟨hne, hj⟩ | hparent)
      · obtain ⟨hfalse, hgone⟩ := (pass.mem_ready_iff j).mp hj
        exact ⟨⟨hne, hfalse⟩, fun p hp => (getElem?_set_eq_true_iff hlt).mpr (.inr (hgone p hp))⟩
      · obtain ⟨hfalse, hnot⟩ := emitted_child hi hparent
        refine ⟨⟨fun heq => hnot (heq ▸ hi), hfalse⟩, fun p hp => ?_⟩
        obtain rfl : i = p := Option.some.inj (Option.some.inj (hparent.symm.trans hp))
        exact (getElem?_set_eq_true_iff hlt).mpr (.inl rfl)
    · rintro ⟨⟨hne, hfalse⟩, hgone⟩
      by_cases hparent : parents[j]? = some (some i)
      · exact .inr hparent
      · refine .inl ⟨hne, (pass.mem_ready_iff j).mpr ⟨hfalse, fun p hp => ?_⟩⟩
        refine ((getElem?_set_eq_true_iff hlt).mp (hgone p hp)).resolve_left ?_
        rintro rfl
        exact hparent hp
  parent_emitted j p hj hp := by
    have hlt := lt_length_emitted hi
    rw [getElem?_set_eq_true_iff hlt] at hj ⊢
    rcases hj with rfl | hj
    · exact .inr (((pass.mem_ready_iff j).mp hi).2 p hp)
    · exact .inr (pass.parent_emitted j p hj hp)

theorem count_emitted_emit_lt (pass : Pass parents) {w : Waits} (hw : w = .ofParents parents)
    {i : Nat} (hi : i ∈ pass.ready) :
    (pass.emit w hw i hi).emitted.count false < pass.emitted.count false := by
  have hlt := lt_length_emitted hi
  have hfalse : pass.emitted[i] = false :=
    (List.getElem?_eq_some_iff.mp ((pass.mem_ready_iff i).mp hi).1).2
  have hpos : 0 < pass.emitted.count false :=
    List.count_pos_iff.mpr (hfalse ▸ List.getElem_mem hlt)
  rw [emit, List.count_set hlt, hfalse]
  show pass.emitted.count false - 1 + 0 < pass.emitted.count false
  omega

/-- Of the positions that are ready the least goes, until none is ready. -/
def run (w : Waits) (hw : w = .ofParents parents) (pass : Pass parents) : Pass parents :=
  match hleast : pass.ready.min? with
  | none => pass
  | some i => run w hw (pass.emit w hw i (List.min?_mem hleast))
termination_by pass.emitted.count false
decreasing_by exact count_emitted_emit_lt pass hw _

end Pass

def ofLinks {K : Type} [DecidableEq K] (links : List (K × Option K)) : ParentFirst :=
  let waits := Waits.ofParents (parents links)
  let pass := Pass.run waits rfl (Pass.start waits rfl)
  ⟨pass.ordered, positions (!·) pass.emitted⟩

def hasCycle {K : Type} [DecidableEq K] (links : List (K × Option K)) : Bool :=
  !(ofLinks links).cyclic.isEmpty

end ParentFirst

end FleetConsole.Tree
