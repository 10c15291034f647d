import FleetConsole.Proofs.TreeOrder

/-! What the check of a tree's order reports. Node by node, it says what is wrong with the node's
parent and whether its id was used before, given the nodes before it; it says nothing of exactly the
lists that are in order. -/
namespace FleetConsole.Tree

/-- What is wrong with a node that stands behind `before` in a list of nodes. -/
inductive Reported (rendered : List NodeId) (nodes before : List Node) (n : Node) :
    Violation → Prop
  /-- It does not matter here whether the page shows the node. -/
  | selfParent (hparent : n.parentId = some n.id) :
      Reported rendered nodes before n (.selfParent n.id)
  | parentAfterChild {p : NodeId} (hparent : n.parentId = some p) (hself : p ≠ n.id)
      (hrendered : p ∉ rendered) (hbefore : p ∉ before.map Node.id)
      (hnode : p ∈ nodes.map Node.id) :
      Reported rendered nodes before n (.parentAfterChild n.id p)
  | unknownParent {p : NodeId} (hparent : n.parentId = some p) (hrendered : p ∉ rendered)
      (hnode : p ∉ nodes.map Node.id) :
      Reported rendered nodes before n (.unknownParent n.id p)
  | duplicateNodeId (hbefore : n.id ∈ before.map Node.id) :
      Reported rendered nodes before n (.duplicateNodeId n.id)

/-- What is reported of one node, given the ids before it. -/
def nodeViolations (all rendered seen : List NodeId) (n : Node) : List Violation :=
  (parentViolation all rendered seen n).toList ++ (repeatViolation seen n).toList

theorem parentViolation_eq_some_iff {all rendered seen : List NodeId} {n : Node} {v : Violation} :
    parentViolation all rendered seen n = some v ↔
      n.parentId = some n.id ∧ v = .selfParent n.id ∨
      ∃ p, n.parentId = some p ∧ p ≠ n.id ∧ p ∉ rendered ∧ p ∉ seen ∧
        (p ∈ all ∧ v = .parentAfterChild n.id p ∨ p ∉ all ∧ v = .unknownParent n.id p) := by
  unfold parentViolation
  cases n.parentId with
  | none => simp
  | some parent =>
    by_cases hself : parent = n.id
    · simp [hself, eq_comm]
    · by_cases hmissing : parent ∈ seen ∨ parent ∈ rendered
      · simp_all
        tauto
      · by_cases hall : parent ∈ all <;> simp_all [eq_comm]

theorem repeatViolation_eq_some_iff {seen : List NodeId} {n : Node} {v : Violation} :
    repeatViolation seen n = some v ↔ n.id ∈ seen ∧ v = .duplicateNodeId n.id := by
  simp [repeatViolation, eq_comm]

theorem mem_nodeViolations_iff {rendered seen : List NodeId} {nodes before : List Node} {n : Node}
    (hn : n ∈ nodes) (hbefore : before ⊆ nodes) (hseen : ∀ p, p ∈ seen ↔ p ∈ before.map Node.id)
    {v : Violation} :
    v ∈ nodeViolations (nodes.map Node.id) rendered seen n ↔
      Reported rendered nodes before n v := by
  rw [nodeViolations, List.mem_append, Option.mem_toList, Option.mem_toList,
    parentViolation_eq_some_iff, repeatViolation_eq_some_iff]
  constructor
  · rintro ((⟨hparent, rfl⟩ | ⟨p, hparent, hself, hrendered, hmissing, ⟨hnode, rfl⟩ | ⟨hnode, rfl⟩⟩) |
      ⟨hmem, rfl⟩)
    · exact .selfParent hparent
    · exact .parentAfterChild hparent hself hrendered (fun hp => hmissing ((hseen p).mpr hp)) hnode
    · exact .unknownParent hparent hrendered hnode
    · exact .duplicateNodeId ((hseen _).mp hmem)
  · rintro (hparent | ⟨hparent, hself, hrendered, hmissing, hnode⟩ | @⟨p, hparent, hrendered, hnode⟩ |
      hmem)
    · exact .inl (.inl ⟨hparent, rfl⟩)
    · exact .inl (.inr ⟨_, hparent, hself, hrendered, fun hp => hmissing ((hseen _).mp hp),
        .inl ⟨hnode, rfl⟩⟩)
    · -- No node's id is neither the node's own nor that of one before it.
      have hself : p ≠ n.id := fun h => hnode (h ▸ List.mem_map_of_mem hn)
      have hmissing : p ∉ seen := fun hp =>
        hnode (List.map_subset Node.id hbefore ((hseen p).mp hp))
      exact .inl (.inr ⟨p, hparent, hself, hrendered, hmissing, .inr ⟨hnode, rfl⟩⟩)
    · exact .inr ⟨(hseen _).mpr hmem, rfl⟩

/-- Of one node, at most one thing is reported of its parent, and a repeated id after it. -/
theorem pairwise_nodeViolations (all rendered seen : List NodeId) (n : Node) :
    (nodeViolations all rendered seen n).Pairwise fun v w =>
      v ≠ w ∧ w = .duplicateNodeId n.id := by
  have hone {α : Type} {R : α → α → Prop} (o : Option α) : o.toList.Pairwise R := by
    cases o <;> simp
  refine List.pairwise_append.mpr ⟨hone _, hone _, fun v hv w hw => ?_⟩
  rw [Option.mem_toList, parentViolation_eq_some_iff] at hv
  obtain ⟨-, rfl⟩ := repeatViolation_eq_some_iff.mp (Option.mem_toList.mp hw)
  refine ⟨?_, rfl⟩
  rcases hv with ⟨-, rfl⟩ | ⟨p, -, -, -, -, ⟨-, rfl⟩ | ⟨-, rfl⟩⟩ <;> simp

/-- The ids seen at a node are those before it. -/
theorem violationsFrom_eq_flatMap (all rendered seen : List NodeId) (nodes : List Node) :
    violationsFrom all rendered seen nodes =
      (List.finRange nodes.length).flatMap fun i : Fin nodes.length =>
        nodeViolations all rendered (((nodes.take i).map Node.id).reverse ++ seen) nodes[i] := by
  induction nodes generalizing seen with
  | nil => rfl
  | cons n rest ih =>
    rw [violationsFrom, ih]
    simp [List.finRange_succ, List.flatMap_map, nodeViolations]

theorem ensureOrder_eq_error_iff {nodes : List Node} {rendered : List NodeId} {e : Fault} :
    ensureOrder nodes rendered = .error e ↔
      ∃ first rest, violations nodes rendered = first :: rest ∧
        e = orderFault first (first :: rest) := by
  unfold ensureOrder
  split
  · simp_all
  · rename_i first rest hsome
    rw [Except.error.injEq]
    constructor
    · rintro rfl
      exact ⟨first, rest, hsome, rfl⟩
    · rintro ⟨_, _, heq, rfl⟩
      obtain ⟨rfl, rfl⟩ := List.cons.inj (hsome.symm.trans heq)
      rfl

/-- Nothing is reported exactly if the nodes are in order. What is reported goes node by node, and
of each node it is what is wrong with it behind the nodes before it, each thing once and a repeated
id last. The order is refused exactly if something is reported, with the code and the summary of
what is reported first. -/
theorem violations_report (nodes : List Node) (rendered : List NodeId) :
    (violations nodes rendered = [] ↔ InOrder rendered nodes) ∧
    (∃ report : Fin nodes.length → List Violation,
      violations nodes rendered = (List.finRange nodes.length).flatMap report ∧
      ∀ i, (∀ v, v ∈ report i ↔ Reported rendered nodes (nodes.take i) nodes[i] v) ∧
        (report i).Pairwise fun v w => v ≠ w ∧ w = .duplicateNodeId nodes[i].id) ∧
    (ensureOrder nodes rendered = .ok () ↔ violations nodes rendered = []) ∧
    ∀ e, ensureOrder nodes rendered = .error e ↔
      ∃ first rest, violations nodes rendered = first :: rest ∧
        e = .invalidWithCode first.code first.summary
          ("tree order validation failed: [" ++
            Text.joinWith ", " ((first :: rest).map Violation.describe) ++ "]") := by
  refine ⟨violations_eq_nil_iff nodes rendered, ⟨_, violationsFrom_eq_flatMap _ _ _ _, fun i =>
    ⟨fun v => ?_, pairwise_nodeViolations _ _ _ _⟩⟩, ensureOrder_eq_ok_iff nodes rendered,
    fun e => ?_⟩
  · exact mem_nodeViolations_iff (List.getElem_mem i.isLt) (List.take_subset _ _) (by simp)
  · exact ensureOrder_eq_error_iff

end FleetConsole.Tree
