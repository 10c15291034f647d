import FleetConsole.Inventory.Basic
import FleetConsole.Proofs.Placement

/-! The tree of resources can always be shown in its order, whatever rows it is made from and
whatever the page shows already. -/
namespace FleetConsole.Tree

/-- Ids are used once, and a node comes after its parent unless the page shows the parent. -/
structure InOrder (rendered : List NodeId) (nodes : List Node) : Prop where
  nodup : (nodes.map Node.id).Nodup
  parent : ∀ before n after, nodes = before ++ n :: after → ∀ p, n.parentId = some p →
    p ≠ n.id ∧ (p ∈ before.map Node.id ∨ p ∈ rendered)

section Violations

theorem parentViolation_eq_none_iff {all rendered seen : List NodeId} {n : Node} :
    parentViolation all rendered seen n = none ↔
      ∀ p, n.parentId = some p → p ≠ n.id ∧ (p ∈ seen ∨ p ∈ rendered) := by
  unfold parentViolation
  cases n.parentId with
  | none => simp
  | some parent =>
    by_cases hself : parent = n.id
    · simp [hself]
    · by_cases hseen : parent ∈ seen ∨ parent ∈ rendered
      · simp [hself, hseen]
      · by_cases hall : parent ∈ all <;> simp_all

theorem repeatViolation_eq_none_iff {seen : List NodeId} {n : Node} :
    repeatViolation seen n = none ↔ n.id ∉ seen := by
  simp [repeatViolation]

theorem forall_split_cons {α : Type} {a : α} {l : List α} {Q : List α → α → Prop} :
    (∀ before x after, a :: l = before ++ x :: after → Q before x) ↔
      Q [] a ∧ ∀ before x after, l = before ++ x :: after → Q (a :: before) x := by
  constructor
  · intro h
    exact ⟨h [] a l rfl, fun before x after hl => h (a :: before) x after (by simp [hl])⟩
  · rintro ⟨hfirst, hrest⟩ before x after hl
    cases before with
    | nil =>
      obtain ⟨rfl, rfl⟩ := List.cons.inj hl
      exact hfirst
    | cons b before =>
      obtain ⟨rfl, htail⟩ := List.cons.inj hl
      exact hrest before x after htail

theorem violationsFrom_eq_nil_iff (all rendered seen : List NodeId) (nodes : List Node) :
    violationsFrom all rendered seen nodes = [] ↔
      (nodes.map Node.id).Nodup ∧ (∀ n ∈ nodes, n.id ∉ seen) ∧
        ∀ before n after, nodes = before ++ n :: after → ∀ p, n.parentId = some p →
          p ≠ n.id ∧ (p ∈ before.map Node.id ++ seen ∨ p ∈ rendered) := by
  induction nodes generalizing seen with
  | nil => simp [violationsFrom]
  | cons n rest ih =>
    have hopen : violationsFrom all rendered seen (n :: rest) = [] ↔
        parentViolation all rendered seen n = none ∧ repeatViolation seen n = none ∧
          violationsFrom all rendered (n.id :: seen) rest = [] := by
      simp [violationsFrom]
    rw [hopen, ih, parentViolation_eq_none_iff, repeatViolation_eq_none_iff, forall_split_cons]
    have hids : (∀ m ∈ rest, m.id ∉ n.id :: seen) ↔
        n.id ∉ rest.map Node.id ∧ ∀ m ∈ rest, m.id ∉ seen := by
      simp only [List.mem_cons, not_or, List.mem_map, not_exists, not_and]
      exact ⟨fun h => ⟨fun m hm => (h m hm).1, fun m hm => (h m hm).2⟩,
        fun h m hm => ⟨h.1 m hm, h.2 m hm⟩⟩
    have hswap (before : List Node) (p : NodeId) :
        p ∈ before.map Node.id ++ n.id :: seen ↔ p ∈ (n :: before).map Node.id ++ seen := by
      simp [or_left_comm]
    simp only [hids, hswap, List.map_cons, List.nodup_cons, List.forall_mem_cons, List.map_nil,
      List.nil_append]
    constructor
    · rintro ⟨hparent, hseen, hnodup, ⟨hrest, hids⟩, hsplits⟩
      exact ⟨⟨hrest, hnodup⟩, ⟨hseen, hids⟩, hparent, hsplits⟩
    · rintro ⟨⟨hrest, hnodup⟩, ⟨hseen, hids⟩, hparent, hsplits⟩
      exact ⟨hparent, hseen, hnodup, ⟨hrest, hids⟩, hsplits⟩

theorem violations_eq_nil_iff (nodes : List Node) (rendered : List NodeId) :
    violations nodes rendered = [] ↔ InOrder rendered nodes := by
  rw [violations, violationsFrom_eq_nil_iff]
  constructor
  · rintro ⟨hnodup, -, hparent⟩
    exact ⟨hnodup, by simpa using hparent⟩
  · rintro ⟨hnodup, hparent⟩
    exact ⟨hnodup, by simp, by simpa using hparent⟩

end Violations

namespace InOrder

theorem nil (rendered : List NodeId) : InOrder rendered [] := ⟨List.nodup_nil, by simp⟩

theorem of_subset {rendered shown : List NodeId} {nodes : List Node} (h : InOrder rendered nodes)
    (hsub : rendered ⊆ shown) : InOrder shown nodes := by
  refine ⟨h.nodup, fun before n after hsplit p hp => ?_⟩
  obtain ⟨hne, hmem⟩ := h.parent before n after hsplit p hp
  exact ⟨hne, hmem.imp_right (hsub ·)⟩

/-- Changes that keep ids and parents keep the order. -/
theorem map {rendered : List NodeId} {nodes : List Node} {f : Node → Node}
    (h : InOrder rendered nodes) (hid : ∀ n, (f n).id = n.id)
    (hparent : ∀ n, (f n).parentId = n.parentId) : InOrder rendered (nodes.map f) := by
  have hids (l : List Node) : (l.map f).map Node.id = l.map Node.id := by simp [hid]
  refine ⟨by rw [hids]; exact h.nodup, fun before n after hsplit p hp => ?_⟩
  obtain ⟨front, back, rfl, rfl, hback⟩ := List.map_eq_append_iff.mp hsplit
  obtain ⟨m, rest, rfl, rfl, -⟩ := List.map_eq_cons_iff.mp hback
  rw [hids, hid]
  exact h.parent front m rest rfl p (by rw [← hp, hparent])

theorem append_singleton {rendered : List NodeId} {nodes : List Node} {n : Node}
    (h : InOrder rendered nodes) (hnew : n.id ∉ nodes.map Node.id)
    (hparent : ∀ p, n.parentId = some p →
      p ≠ n.id ∧ (p ∈ nodes.map Node.id ∨ p ∈ rendered)) :
    InOrder rendered (nodes ++ [n]) := by
  refine ⟨?_, fun before m after hsplit p hp => ?_⟩
  · rw [List.map_append, List.map_singleton]
    exact List.nodup_append.mpr ⟨h.nodup, List.nodup_singleton _, by grind⟩
  · rcases List.eq_nil_or_concat after with rfl | ⟨rest, last, rfl⟩
    · obtain ⟨rfl, hm⟩ := List.append_inj' hsplit rfl
      obtain rfl : n = m := List.singleton_inj.mp hm
      exact hparent p hp
    · have hfront : nodes ++ [n] = (before ++ m :: rest) ++ [last] := by simpa using hsplit
      exact h.parent before m rest (List.append_inj' hfront rfl).1 p hp

/-- What holds of a node if it holds of its parent holds of all nodes. -/
theorem parent_induction {nodes : List Node} (h : InOrder [] nodes) {P : Node → Prop}
    (step : ∀ n ∈ nodes, (∀ m ∈ nodes, n.parentId = some m.id → P m) → P n) :
    ∀ n ∈ nodes, P n := by
  suffices ∀ before n after, nodes = before ++ n :: after → P n by
    intro n hn
    obtain ⟨before, after, hsplit⟩ := List.append_of_mem hn
    exact this before n after hsplit
  intro before
  induction hlen : before.length using Nat.strong_induction_on generalizing before with
  | _ k ih =>
    intro n after hsplit
    refine step n (by simp [hsplit]) fun m hm hparent => ?_
    obtain ⟨-, hmem⟩ := h.parent before n after hsplit m.id hparent
    have hbefore : m.id ∈ before.map Node.id := by simpa using hmem
    obtain ⟨q, hq, hid⟩ := List.mem_map.mp hbefore
    have hqm : q = m := List.inj_on_of_nodup_map h.nodup (by simp [hsplit, hq]) hm hid
    obtain ⟨front, back, rfl⟩ := List.append_of_mem (hqm ▸ hq)
    exact ih front.length (by rw [← hlen]; simp) front rfl m (back ++ n :: after) (by simp [hsplit])

variable {s : Surroundings} {nodes : List Node}

theorem insertMissing {n : Node} {parent : NodeId} (h : InOrder s.rendered nodes)
    (hn : n.parentId = some parent)
    (hparent : parent ∈ nodes.map Node.id ∨ parent ∈ s.rendered) :
    InOrder s.rendered (s.insertMissing nodes n) := by
  unfold Surroundings.insertMissing
  split
  · exact h
  · rename_i habsent
    have hnew : n.id ∉ nodes.map Node.id ∧ n.id ∉ s.rendered := by simpa using habsent
    refine h.append_singleton hnew.1 fun p hp => ?_
    obtain rfl : parent = p := Option.some.inj (hn.symm.trans hp)
    refine ⟨?_, hparent⟩
    rintro rfl
    exact hparent.elim hnew.1 hnew.2

theorem mem_insertMissing {id : NodeId} {n : Node} :
    (id ∈ (s.insertMissing nodes n).map Node.id ∨ id ∈ s.rendered) ↔
      (id ∈ nodes.map Node.id ∨ id ∈ s.rendered) ∨ id = n.id := by
  unfold Surroundings.insertMissing
  split
  · rename_i hpresent
    have hshown : n.id ∈ nodes.map Node.id ∨ n.id ∈ s.rendered := by simpa using hpresent
    refine ⟨.inl, ?_⟩
    rintro (h | rfl)
    · exact h
    · exact hshown
  · simp only [List.map_append, List.map_singleton, List.mem_append, List.mem_singleton]
    tauto

/-- A chain of folders that begins in something present keeps the order, and its end is present. -/
theorem foldl_insertMissing {added : List Node} {parent : NodeId} (h : InOrder s.rendered nodes)
    (hlinked : Linked parent added)
    (hparent : parent ∈ nodes.map Node.id ∨ parent ∈ s.rendered) :
    InOrder s.rendered (added.foldl s.insertMissing nodes) ∧
      (innermost parent added ∈ (added.foldl s.insertMissing nodes).map Node.id ∨
        innermost parent added ∈ s.rendered) := by
  induction added generalizing parent nodes with
  | nil => exact ⟨h, hparent⟩
  | cons n added ih =>
    exact ih (h.insertMissing hlinked.1 hparent) hlinked.2 (mem_insertMissing.mpr (.inr rfl))

/-- Placing a row keeps the order, unless the row has a node already or is its own parent. -/
theorem place {b : Build} (batch : List Resource) {r : Resource} (h : InOrder s.rendered b.nodes)
    (hnew : NodeId.resource r.id ∉ b.nodes.map Node.id) (hself : r.parentId ≠ some r.id) :
    InOrder s.rendered (s.place batch b r).nodes := by
  rw [Surroundings.nodes_place]
  cases hanchor : s.anchor? b r with
  | none =>
    refine h.append_singleton hnew fun p hp => ?_
    simp [Surroundings.ownNode, Surroundings.resourceNode] at hp
  | some p =>
    obtain ⟨hparent, hpresent⟩ := Option.filter_eq_some_iff.mp hanchor
    have hshown : NodeId.resource p ∈ b.nodes.map Node.id ∨ NodeId.resource p ∈ s.rendered := by
      simpa [Surroundings.isPresent, Build.hasNode] using hpresent
    have hfolder (n : Node) (hn : n ∈ s.foldersBelow batch p r) (q : ResourceId) :
        n.id ≠ NodeId.resource q := (s.isFolderBelow_of_mem batch hn).ne_resource q
    obtain ⟨horder, hinner⟩ := h.foldl_insertMissing (s.linked_foldersBelow batch p r) hshown
    refine horder.append_singleton ?_ fun q hq => ?_
    · rw [Surroundings.ownNode_id, s.resource_mem_ids_foldl fun n hn => hfolder n hn r.id]
      exact hnew
    · obtain rfl := Option.some.inj hq
      refine ⟨fun heq => ?_, hinner⟩
      rw [Surroundings.ownNode_id] at heq
      rcases innermost_mem (NodeId.resource p) (s.foldersBelow batch p r) with htop | hmem
      · rw [htop, NodeId.resource_inj] at heq
        exact hself (heq ▸ hparent)
      · obtain ⟨n, hn, hid⟩ := List.mem_map.mp hmem
        exact hfolder n hn r.id (hid.trans heq)

end InOrder

namespace Surroundings

variable (s : Surroundings)

theorem inOrder_placing {rows before after : List Resource}
    (h : placedRows rows = before ++ after) : InOrder s.rendered (s.placing rows before).nodes := by
  induction before using List.reverseRecOn generalizing after with
  | nil => exact .nil _
  | append_singleton before r ih =>
    have hsplit : placedRows rows = before ++ r :: after := by simpa using h
    have hnodup := nodup_ids_placedRows rows
    rw [hsplit, List.map_append, List.map_cons] at hnodup
    have hplaced : r ∈ placedRows rows := by simp [hsplit]
    rw [placing_append_singleton]
    refine (ih hsplit).place _ ?_ (parentId_ne_self_of_mem_placedRows hplaced)
    rw [resource_mem_ids_placing]
    exact fun hmem => (List.nodup_append.mp hnodup).2.2 _ hmem _ List.mem_cons_self rfl

end Surroundings

/-- A node as it is named beside the others of a tree. -/
def distinguished (catalog : Catalog) (nodes : List Node) (node : Node) : Node :=
  match node.kind with
  | .autoGroup typeId _ _ _ =>
    if 1 < nodes.countP (isAutoGroupNamed node.parentId node.name) then
      match catalog.type? typeId with
      | some t => { node with name := pluginName t }
      | none => node
    else node
  | _ => node

theorem disambiguate_eq_map (catalog : Catalog) (nodes : List Node) :
    disambiguate catalog nodes = nodes.map (distinguished catalog nodes) := rfl

@[simp] theorem distinguished_id (catalog : Catalog) (nodes : List Node) (n : Node) :
    (distinguished catalog nodes n).id = n.id := by
  unfold distinguished
  repeat' split
  all_goals rfl

@[simp] theorem distinguished_parentId (catalog : Catalog) (nodes : List Node) (n : Node) :
    (distinguished catalog nodes n).parentId = n.parentId := by
  unfold distinguished
  repeat' split
  all_goals rfl

namespace Surroundings

theorem inOrder_build (s : Surroundings) (rows : List Resource) :
    InOrder s.rendered (s.build rows).nodes := by
  rw [build_nodes, disambiguate_eq_map]
  exact (s.inOrder_placing (List.append_nil _).symm).map (distinguished_id _ _)
    (distinguished_parentId _ _)

theorem checkedBuild_eq (s : Surroundings) (rows : List Resource) :
    s.checkedBuild rows = .ok (s.build rows) := by
  have hok : ensureOrder (s.build rows).nodes s.rendered = .ok () :=
    (ensureOrder_eq_ok_iff _ _).mpr ((violations_eq_nil_iff _ _).mpr (s.inOrder_build rows))
  rw [checkedBuild, hok]
  rfl

theorem mem_rendered_foldl_withAnchor (s : Surroundings) (anchors : List Resource) (id : NodeId) :
    id ∈ (anchors.foldl withAnchor s).rendered ↔
      id ∈ s.rendered ∨ id ∈ anchors.map fun a => NodeId.resource a.id := by
  induction anchors generalizing s with
  | nil => simp
  | cons a anchors ih =>
    rw [List.foldl_cons, ih]
    simp only [withAnchor, List.mem_cons, List.map_cons]
    tauto

end Surroundings

end FleetConsole.Tree

namespace FleetConsole.Inventory

open FleetConsole.Tree

variable (inv : Inventory) (rendered : List NodeId)

theorem resourceTree_none :
    inv.resourceTree none rendered = .ok ((inv.surroundings rendered).build inv.topBatch) :=
  Surroundings.checkedBuild_eq _ _

theorem resourceTree_some {id : ResourceId} {r : Resource} (h : inv.resource? id = some r) :
    inv.resourceTree (some id) rendered =
      .ok (((inv.surroundings rendered).withAnchor r).build (inv.childrenOf id)) := by
  simp only [resourceTree, h]
  exact Surroundings.checkedBuild_eq _ _

theorem resourceTree_unknown {id : ResourceId} (h : inv.resource? id = none) :
    inv.resourceTree (some id) rendered = .error (unknownResource id) := by
  simp only [resourceTree, h]

theorem resource?_eq_none_iff {id : ResourceId} :
    inv.resource? id = none ↔ ∀ r ∈ inv.resources, r.id ≠ id := by
  simp [resource?]

/-- A tree of resources can be shown in its order; a step of it fails only for a parent that the
inventory does not know. -/
theorem resource_trees_inOrder :
    (∀ (catalog : Catalog) (locked : List ResourceId) (rendered : List NodeId)
        (anchors rows : List Resource),
      let s := anchors.foldl Surroundings.withAnchor
        (((Surroundings.ofCatalog catalog).withLocked locked).withRendered rendered)
      let shown := rendered ++ anchors.map fun a => NodeId.resource a.id
      violations (s.build rows).nodes shown = [] ∧ InOrder shown (s.build rows).nodes) ∧
    ∀ (inv : Inventory) (parent : Option ResourceId) (rendered : List NodeId),
      ((∃ b, inv.resourceTree parent rendered = .ok b) ↔
        ∀ id, parent = some id → ∃ r ∈ inv.resources, r.id = id) ∧
      ∀ e, inv.resourceTree parent rendered = .error e ↔
        ∃ id, parent = some id ∧ (∀ r ∈ inv.resources, r.id ≠ id) ∧
          e = unknownResource id ∧ e.kind = .notFound := by
  constructor
  · intro catalog locked rendered anchors rows s shown
    have hshown : s.rendered ⊆ shown := by
      intro id hid
      rw [Surroundings.mem_rendered_foldl_withAnchor] at hid
      exact List.mem_append.mpr hid
    have horder := (s.inOrder_build rows).of_subset hshown
    exact ⟨(violations_eq_nil_iff _ _).mpr horder, horder⟩
  · intro inv parent rendered
    cases parent with
    | none => simp [inv.resourceTree_none]
    | some id =>
      cases h : inv.resource? id with
      | none =>
        have hnone := inv.resource?_eq_none_iff.mp h
        rw [inv.resourceTree_unknown rendered h]
        refine ⟨?_, fun e => ?_⟩
        · simpa using hnone
        · constructor
          · intro he
            obtain rfl := Except.error.inj he
            exact ⟨id, rfl, hnone, rfl, rfl⟩
          · rintro ⟨_, hid, -, rfl, -⟩
            rw [Option.some.inj hid]
      | some r =>
        have hmem : r ∈ inv.resources := List.mem_of_find?_eq_some h
        have hid : r.id = id := by simpa using List.find?_some h
        rw [inv.resourceTree_some rendered h]
        refine ⟨?_, fun e => ?_⟩
        · simpa using ⟨r, hmem, hid⟩
        · simp only [reduceCtorEq, false_iff, not_exists, not_and]
          intro other hother hnone
          exact absurd (hid.trans (Option.some.inj hother)) (hnone r hmem)

end FleetConsole.Inventory
