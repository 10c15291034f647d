import FleetConsole.Proofs.BuildNodes

/-! A page that loads the tree of resources in steps, first the top and then the children of one
resource after another, holds nodes of the tree that one build of all resources makes. When nothing
is left to expand, it holds all of them that lie below the top. -/
namespace FleetConsole.Inventory

open FleetConsole.Tree

/-- What a page holds of the tree, and the resources it has expanded. -/
structure Client where
  nodes : List Node
  expanded : List ResourceId

namespace Client

def ids (c : Client) : List NodeId := c.nodes.map Node.id

def Holds (c : Client) (p : ResourceId) : Prop := NodeId.resource p ∈ c.ids

/-- Of the answer to a step, the nodes with new ids are kept. -/
def expand (c : Client) (p : ResourceId) (answer : Build) : Client where
  nodes := c.nodes ++ answer.nodes.filter (·.id ∉ c.ids)
  expanded := p :: c.expanded

theorem holds_expand (c : Client) {p q : ResourceId} {answer : Build} (h : c.Holds q) :
    (c.expand p answer).Holds q := by
  simp only [Holds, ids, expand, List.map_append, List.mem_append]
  exact .inl h

end Client

/-- The pages that come about in steps. Each step tells the inventory which ids the page holds. -/
inductive Loaded (inv : Inventory) : Client → Prop
  | first {b : Build} (answer : inv.resourceTree none [] = .ok b) : Loaded inv ⟨b.nodes, []⟩
  | step {c : Client} {p : ResourceId} {rendered : List NodeId} {b : Build}
      (before : Loaded inv c) (holds : c.Holds p) (known : ∀ id, id ∈ rendered ↔ id ∈ c.ids)
      (answer : inv.resourceTree (some p) rendered = .ok b) : Loaded inv (c.expand p b)

/-- The tree of all resources, built at once. -/
def eagerTree (inv : Inventory) : Build := (inv.surroundings []).build inv.resources

/-- What the first step answers. -/
def firstTree (inv : Inventory) : Build := (inv.surroundings []).build inv.topBatch

/-- What a step below `r` answers. -/
def stepTree (inv : Inventory) (rendered : List NodeId) (r : Resource) : Build :=
  ((inv.surroundings rendered).withAnchor r).build (inv.childrenOf r.id)

/-- The chain of parents of a node leads to the node of a resource without a parent. -/
inductive Rooted (inv : Inventory) : Node → Prop
  | root {n : Node} {r : Resource} (mem : n ∈ inv.eagerTree.nodes) (row : r ∈ inv.resources)
      (top : r.parentId = none) (id : n.id = NodeId.resource r.id) (parent : n.parentId = none) :
      Rooted inv n
  | under {n m : Node} (mem : n ∈ inv.eagerTree.nodes) (above : Rooted inv m)
      (parent : n.parentId = some m.id) : Rooted inv n

/-- The ids between a resource and its children, and those of the children. -/
def Below (inv : Inventory) (p : ResourceId) (id : NodeId) : Prop :=
  NodeId.IsFolderBelow p id ∨
    ∃ r ∈ inv.resources, r.parentId = some p ∧ id = NodeId.resource r.id

def IsRootNode (inv : Inventory) (id : NodeId) : Prop :=
  ∃ r ∈ inv.resources, r.parentId = none ∧ id = NodeId.resource r.id

/-- Resources whose children the page has asked for; those of roots come with the first step. -/
def Client.Opened (inv : Inventory) (c : Client) (p : ResourceId) : Prop :=
  p ∈ inv.rootIds ∨ p ∈ c.expanded

/-- The ids that a page should hold if the tree has them. -/
def Client.Due (inv : Inventory) (c : Client) (id : NodeId) : Prop :=
  inv.IsRootNode id ∨ ∃ p, c.Opened inv p ∧ inv.Below p id

/-- A page that agrees with the tree built at once. -/
structure Client.Agrees (inv : Inventory) (c : Client) : Prop where
  mem_iff : ∀ n, n ∈ c.nodes ↔ n ∈ inv.eagerTree.nodes ∧ c.Due inv n.id
  expanded_held : ∀ p ∈ c.expanded, c.Holds p

variable {inv : Inventory}

theorem mem_rootIds_iff {p : ResourceId} :
    p ∈ inv.rootIds ↔ ∃ r ∈ inv.resources, r.parentId = none ∧ r.id = p := by
  simp [rootIds, and_assoc]

theorem mem_eagerTree_iff {n : Node} :
    n ∈ inv.eagerTree.nodes ↔ inv.eagerTree.node? n.id = some n :=
  Surroundings.mem_nodes_build_iff _

theorem inOrder_eagerTree : InOrder [] inv.eagerTree.nodes :=
  (inv.surroundings []).inOrder_build inv.resources

theorem mem_firstTree_iff {n : Node} :
    n ∈ inv.firstTree.nodes ↔ inv.firstTree.node? n.id = some n :=
  Surroundings.mem_nodes_build_iff _

theorem mem_stepTree_iff {rendered : List NodeId} {r : Resource} {n : Node} :
    n ∈ (inv.stepTree rendered r).nodes ↔ (inv.stepTree rendered r).node? n.id = some n :=
  Surroundings.mem_nodes_build_iff _

/-- A row stands below its parent, and so do the folders around it. -/
theorem below_of_row {r : Resource} {p : ResourceId} {id : NodeId} (hr : r ∈ inv.resources)
    (hparent : r.parentId = some p) (h : id = NodeId.resource r.id ∨ NodeId.IsFolderBelow p id) :
    inv.Below p id :=
  h.symm.imp_right fun hid => ⟨r, hr, hparent, hid⟩

/-- A page has asked for the children of a resource if it holds a folder of them. -/
theorem Client.Agrees.opened_of_folder {c : Client} (hc : c.Agrees inv) {p : ResourceId} {n : Node}
    (hn : n ∈ c.nodes) (hfolder : NodeId.IsFolderBelow p n.id) : c.Opened inv p := by
  rcases ((hc.mem_iff n).mp hn).2 with ⟨r, -, -, hid⟩ | ⟨q, hq, hbelow | ⟨r, -, -, hid⟩⟩
  · exact absurd hid (hfolder.ne_resource r.id)
  · exact hfolder.anchor_unique hbelow ▸ hq
  · exact absurd hid (hfolder.ne_resource r.id)

/-- A row without a parent is built at the top, whatever it is built with. -/
theorem node?_build_root {rows : List Resource} {r : Resource} (hr : r ∈ placedRows rows)
    (htop : r.parentId = none) :
    ((inv.surroundings []).build rows).node? (NodeId.resource r.id) =
      some ((inv.surroundings []).resourceNode none r) := by
  have hanchor : (inv.surroundings []).anchorAmong rows r = none := by
    simp [Surroundings.anchorAmong, htop]
  rw [Surroundings.node?_resource _ hr, hanchor]
  rfl

section Steps

variable (hids : (inv.resources.map Resource.id).Nodup)

include hids

theorem firstRows_filter (P : Resource → Bool) :
    firstRows (inv.resources.filter P) = inv.resources.filter P :=
  firstRows_of_nodup (hids.sublist (List.filter_sublist.map _))

theorem find?_row {r : Resource} (hr : r ∈ inv.resources) {P : Resource → Bool} (hP : P r = true) :
    (inv.resources.filter P).find? (·.id = r.id) = some r :=
  find?_key_of_mem (hids.sublist (List.filter_sublist.map _)) (List.mem_filter.mpr ⟨hr, hP⟩)

theorem mem_of_mem_placedRows_filter {P : Resource → Bool} {r : Resource}
    (h : r ∈ placedRows (inv.resources.filter P)) : r ∈ inv.resources ∧ P r = true := by
  have hrow := mem_firstRows_of_mem_placedRows h
  rw [firstRows_filter hids] at hrow
  exact List.mem_filter.mp hrow

theorem mem_of_mem_placedRows {r : Resource} (h : r ∈ placedRows inv.resources) :
    r ∈ inv.resources := by
  rw [← firstRows_of_nodup hids]
  exact mem_firstRows_of_mem_placedRows h

theorem resource?_of_mem {r : Resource} (hr : r ∈ inv.resources) :
    inv.resource? r.id = some r :=
  find?_key_of_mem hids hr

theorem mem_placedRows_root {P : Resource → Bool} {r : Resource} (hr : r ∈ inv.resources)
    (hP : P r = true) (htop : r.parentId = none) : r ∈ placedRows (inv.resources.filter P) := by
  have hroot : r ∈ (placedRows (inv.resources.filter P)).filter (·.parentId.isNone) := by
    rw [filter_placedRows_roots, firstRows_filter hids]
    exact List.mem_filter.mpr ⟨List.mem_filter.mpr ⟨hr, hP⟩, by simp [htop]⟩
  exact List.mem_of_mem_filter hroot

theorem mem_placedRows_topBatch {r : Resource} (hr : r ∈ inv.resources) (htop : r.parentId = none) :
    r ∈ placedRows inv.topBatch :=
  mem_placedRows_root hids hr (by simp [htop]) htop

/-- The rows that the tree built at once has below `p` are its children. -/
theorem filter_placedRows_resources {p : ResourceId}
    (hp : p ∈ (placedRows inv.resources).map Resource.id) :
    (placedRows inv.resources).filter (·.parentId = some p) = inv.childrenOf p := by
  rw [filter_placedRows_eq (.inl hp), firstRows_of_nodup hids, childrenOf]

theorem mem_placedRows_of_root {r : Resource} (hr : r ∈ inv.resources) (htop : r.parentId = none) :
    r ∈ placedRows inv.resources := by
  have h := mem_placedRows_root hids (P := fun _ => true) hr rfl htop
  rwa [List.filter_eq_self.mpr fun _ _ => rfl] at h

/-- The first step builds below a root what the build of all resources does. -/
theorem sameChildren_first {p : ResourceId} (hp : p ∈ inv.rootIds) :
    SameChildren p (inv.surroundings []) (inv.surroundings []) inv.topBatch inv.resources := by
  obtain ⟨r, hr, htop, rfl⟩ := mem_rootIds_iff.mp hp
  have hbatch : firstRows inv.topBatch = inv.topBatch := firstRows_filter hids _
  have hrow : r ∈ placedRows inv.topBatch := mem_placedRows_topBatch hids hr htop
  have hall : r ∈ placedRows inv.resources := mem_placedRows_of_root hids hr htop
  refine ⟨rfl, rfl, .inl (List.mem_map_of_mem (mem_firstRows_of_mem_placedRows hrow)),
    .inl (List.mem_map_of_mem (mem_firstRows_of_mem_placedRows hall)), ?_, ?_⟩
  · rw [filter_placedRows_resources hids (List.mem_map_of_mem hall),
      filter_placedRows_eq (.inl (List.mem_map_of_mem hrow)), hbatch, topBatch, childrenOf,
      List.filter_filter]
    refine List.filter_congr fun c _ => ?_
    by_cases hc : c.parentId = some r.id
    · simp [hc, hp]
    · simp [hc]
  · funext t
    rw [Surroundings.backingGroupName, Surroundings.backingGroupName, hbatch, topBatch,
      find?_row hids hr (by simp [htop]), firstRows_of_nodup hids, find?_key_of_mem hids hr]

/-- A step below `p` builds what the build of all resources does there. -/
theorem sameChildren_step {r : Resource} (hr : r ∈ placedRows inv.resources)
    (rendered : List NodeId) :
    SameChildren r.id ((inv.surroundings rendered).withAnchor r) (inv.surroundings [])
      (inv.childrenOf r.id) inv.resources := by
  have hbatch : firstRows (inv.childrenOf r.id) = inv.childrenOf r.id := firstRows_filter hids _
  have hrow : r ∈ inv.resources := mem_of_mem_placedRows hids hr
  have habsent : r.id ∉ (inv.childrenOf r.id).map Resource.id := by
    intro hmem
    obtain ⟨c, hc, hid⟩ := List.mem_map.mp hmem
    obtain ⟨hcrow, hparent⟩ := List.mem_filter.mp hc
    obtain rfl := List.inj_on_of_nodup_map hids hcrow hrow hid
    exact parentId_ne_self_of_mem_placedRows hr (by simpa using hparent)
  refine ⟨rfl, rfl, .inr List.mem_cons_self,
    .inl (List.mem_map_of_mem (mem_firstRows_of_mem_placedRows hr)), ?_, ?_⟩
  · rw [filter_placedRows_resources hids (List.mem_map_of_mem hr),
      filter_placedRows_eq (.inr (by rwa [hbatch])), hbatch, childrenOf, List.filter_filter]
    simp
  · funext t
    have hnone : (inv.childrenOf r.id).find? (·.id = r.id) = none := by simpa using habsent
    rw [Surroundings.backingGroupName, Surroundings.backingGroupName, hbatch, hnone,
      firstRows_of_nodup hids, find?_key_of_mem hids hrow]
    simp [Surroundings.anchorName?, Surroundings.withAnchor]

theorem mem_placedRows_of_holds {c : Client} (hc : c.Agrees inv) {p : ResourceId}
    (hp : c.Holds p) : ∃ r ∈ placedRows inv.resources, r ∈ inv.resources ∧ r.id = p := by
  obtain ⟨n, hn, hid⟩ := List.mem_map.mp hp
  have hnode := mem_eagerTree_iff.mp ((hc.mem_iff n).mp hn).1
  rw [hid] at hnode
  by_cases hplaced : p ∈ (placedRows inv.resources).map Resource.id
  · obtain ⟨r, hr, rfl⟩ := List.mem_map.mp hplaced
    exact ⟨r, hr, mem_of_mem_placedRows hids hr, rfl⟩
  · rw [eagerTree, Surroundings.node?_resource_eq_none _ hplaced] at hnode
    simp at hnode

/-- The first step agrees with the build of all resources where it has to. -/
theorem node?_first {id : NodeId} (h : Client.Due inv ⟨[], []⟩ id) :
    inv.firstTree.node? id = inv.eagerTree.node? id := by
  rcases h with ⟨r, hr, htop, rfl⟩ | ⟨p, hopen, hbelow⟩
  · rw [firstTree, eagerTree, node?_build_root (mem_placedRows_topBatch hids hr htop) htop,
      node?_build_root (mem_placedRows_of_root hids hr htop) htop]
  · have hp : p ∈ inv.rootIds := by simpa [Client.Opened] using hopen
    have hsame := sameChildren_first hids hp
    rcases hbelow with hfolder | ⟨c, hc, hparent, rfl⟩
    · exact hsame.node?_folder (fun _ _ => List.not_mem_nil) (fun _ _ => List.not_mem_nil) hfolder
    · refine hsame.node?_child ?_ hparent
      obtain ⟨r, hr, htop, rfl⟩ := mem_rootIds_iff.mp hp
      have hrow : r ∈ placedRows inv.topBatch := mem_placedRows_topBatch hids hr htop
      have hchild : c ∈ (placedRows inv.topBatch).filter (·.parentId = some r.id) := by
        rw [filter_placedRows_eq (.inl (List.mem_map_of_mem hrow)), topBatch, firstRows_filter hids]
        simp [hc, hparent, hp]
      exact List.mem_of_mem_filter hchild

theorem due_of_mem_first {n : Node}
    (h : n ∈ inv.firstTree.nodes) : Client.Due inv ⟨[], []⟩ n.id := by
  obtain ⟨r, hr, hnode⟩ := Surroundings.parentId_of_mem_build _ h
  obtain ⟨hrow, htop⟩ := mem_of_mem_placedRows_filter hids hr
  rcases hnode with ⟨-, hid, -⟩ | ⟨p, hanchor, hid, -⟩
  · cases hparent : r.parentId with
    | none => exact .inl ⟨r, hrow, hparent, hid⟩
    | some p =>
      have hp : p ∈ inv.rootIds := by simpa [hparent] using htop
      exact .inr ⟨p, .inl hp, below_of_row hrow hparent (.inl hid)⟩
  · have hparent := ((inv.surroundings []).anchorAmong_eq_some_iff.mp hanchor).1
    have hp : p ∈ inv.rootIds := by simpa [hparent] using htop
    exact .inr ⟨p, .inl hp, below_of_row hrow hparent hid⟩

/-- After the first step a page agrees with the tree built at once. -/
theorem agrees_first :
    Client.Agrees inv ⟨inv.firstTree.nodes, []⟩ := by
  have hmem (n : Node) : n ∈ inv.firstTree.nodes ↔
      n ∈ inv.eagerTree.nodes ∧ Client.Due inv ⟨[], []⟩ n.id := by
    rw [mem_firstTree_iff, mem_eagerTree_iff]
    constructor
    · intro hn
      have hdue := due_of_mem_first hids (mem_firstTree_iff.mpr hn)
      rw [node?_first hids hdue] at hn
      exact ⟨hn, hdue⟩
    · rintro ⟨hn, hdue⟩
      rwa [node?_first hids hdue]
  exact ⟨hmem, by simp⟩

theorem below_of_mem_step {r : Resource} {rendered : List NodeId} {n : Node}
    (h : n ∈ (inv.stepTree rendered r).nodes) :
    inv.Below r.id n.id := by
  obtain ⟨c, hc, hnode⟩ := Surroundings.parentId_of_mem_build _ h
  obtain ⟨hrow, hparent⟩ := mem_of_mem_placedRows_filter hids hc
  have hparent : c.parentId = some r.id := by simpa using hparent
  rcases hnode with ⟨-, hid, -⟩ | ⟨p, hanchor, hid, -⟩
  · exact .inr ⟨c, hrow, hparent, hid⟩
  · obtain rfl : r.id = p := Option.some.inj
      (hparent.symm.trans (Surroundings.anchorAmong_eq_some_iff _ |>.mp hanchor).1)
    exact below_of_row hrow hparent hid

/-- What is new in the answer to a step is as in the build of all resources. If the step was made
before, nothing is new. -/
theorem node?_step {c : Client} (hc : c.Agrees inv) {r : Resource}
    (hr : r ∈ placedRows inv.resources) {rendered : List NodeId}
    (hknown : ∀ id, id ∈ rendered ↔ id ∈ c.ids) {id : NodeId} (hbelow : inv.Below r.id id)
    (hnew : id ∉ c.ids) :
    (inv.stepTree rendered r).node? id =
      inv.eagerTree.node? id := by
  have hsame := sameChildren_step hids hr rendered
  rcases hbelow with hfolder | ⟨child, hchild, hparent, rfl⟩
  · have hunshown (folder : NodeId) (hf : NodeId.IsFolderBelow r.id folder)
        (hfnew : folder ∉ c.ids) :
        folder ∉ ((inv.surroundings rendered).withAnchor r).rendered := by
      simp only [Surroundings.withAnchor, List.mem_cons, not_or]
      exact ⟨hf.ne_resource r.id, by simpa [surroundings, Surroundings.withRendered,
        Surroundings.withLocked, Surroundings.ofCatalog, hknown] using hfnew⟩
    by_cases hopen : c.Opened inv r.id
    · -- the tree has no such folder, or the page would hold it already
      have hnone : inv.eagerTree.node? id = none := by
        refine Option.eq_none_iff_forall_ne_some.mpr fun n hn => hnew ?_
        obtain rfl : n.id = id := by simpa using List.find?_some hn
        exact List.mem_map_of_mem ((hc.mem_iff n).mpr
          ⟨mem_eagerTree_iff.mpr hn, .inr ⟨r.id, hopen, .inl hfolder⟩⟩)
      have hsome := hsame.isSome_node?_folder hfolder (hunshown id hfolder hnew)
        List.not_mem_nil
      rw [← eagerTree, ← stepTree, hnone] at hsome
      rw [hnone]
      simpa using hsome
    · refine hsame.node?_folder (fun folder hf => hunshown folder hf fun hmem => hopen ?_)
        (fun _ _ => List.not_mem_nil) hfolder
      obtain ⟨n, hn, rfl⟩ := List.mem_map.mp hmem
      exact hc.opened_of_folder hn hf
  · refine hsame.node?_child ?_ hparent
    have hrows : firstRows (inv.childrenOf r.id) = inv.childrenOf r.id := firstRows_filter hids _
    have hmem : child ∈ (placedRows (inv.childrenOf r.id)).filter (·.parentId = some r.id) := by
      rw [hsame.children, filter_placedRows_resources hids (List.mem_map_of_mem hr)]
      exact List.mem_filter.mpr ⟨hchild, by simpa using hparent⟩
    exact List.mem_of_mem_filter hmem

/-- A step keeps a page in agreement with the tree built at once. -/
theorem agrees_step {c : Client} (hc : c.Agrees inv) {r : Resource}
    (hr : r ∈ placedRows inv.resources) (hholds : c.Holds r.id) {rendered : List NodeId}
    (hknown : ∀ id, id ∈ rendered ↔ id ∈ c.ids) :
    (c.expand r.id (inv.stepTree rendered r)).Agrees inv := by
  have hnew (n : Node) (hid : n.id ∉ c.ids) :
      n ∈ (inv.stepTree rendered r).nodes ↔
        n ∈ inv.eagerTree.nodes ∧ inv.Below r.id n.id := by
    constructor
    · intro hn
      have hbelow := below_of_mem_step hids hn
      rw [mem_stepTree_iff, node?_step hids hc hr hknown hbelow hid] at hn
      exact ⟨mem_eagerTree_iff.mpr hn, hbelow⟩
    · rintro ⟨hn, hbelow⟩
      rw [mem_stepTree_iff, node?_step hids hc hr hknown hbelow hid]
      exact mem_eagerTree_iff.mp hn
  have hold (n : Node) (hn : n ∈ inv.eagerTree.nodes) (hid : n.id ∈ c.ids) : n ∈ c.nodes := by
    obtain ⟨m, hm, hmid⟩ := List.mem_map.mp hid
    obtain rfl := List.inj_on_of_nodup_map inOrder_eagerTree.nodup
      ((hc.mem_iff m).mp hm).1 hn hmid
    exact hm
  have hdue (id : NodeId) (b : Build) :
      (c.expand r.id b).Due inv id ↔ c.Due inv id ∨ inv.Below r.id id := by
    simp only [Client.Due, Client.Opened, Client.expand, List.mem_cons]
    grind
  refine ⟨fun n => ?_, fun p hp => ?_⟩
  · rw [hdue]
    by_cases hid : n.id ∈ c.ids
    · have hkeep : n ∈ (c.expand r.id (inv.stepTree rendered r)).nodes ↔ n ∈ c.nodes := by
        simp [Client.expand, hid]
      rw [hkeep]
      exact ⟨fun hn => ((hc.mem_iff n).mp hn).imp_right .inl, fun hn => hold n hn.1 hid⟩
    · have hadd : n ∈ (c.expand r.id (inv.stepTree rendered r)).nodes ↔
          n ∈ c.nodes ∨ n ∈ (inv.stepTree rendered r).nodes := by
        simp [Client.expand, hid]
      rw [hadd, hnew n hid, hc.mem_iff]
      tauto
  · refine c.holds_expand ?_
    rcases List.mem_cons.mp hp with rfl | hp
    · exact hholds
    · exact hc.expanded_held p hp

theorem agrees_of_loaded {c : Client} (h : Loaded inv c) : c.Agrees inv := by
  induction h with
  | first answer =>
    rw [resourceTree_none] at answer
    obtain rfl := Except.ok.inj answer
    exact agrees_first hids
  | step before holds known answer ih =>
    obtain ⟨r, hr, hrow, rfl⟩ := mem_placedRows_of_holds hids ih holds
    rw [inv.resourceTree_some _ (resource?_of_mem hids hrow)] at answer
    obtain rfl := Except.ok.inj answer
    exact agrees_step hids ih hr holds known

/-- In the tree built at once, what lies below `p` names `p` as its parent, or a folder there. -/
theorem parentId_of_below {p : ResourceId} (hp : p ∈ (placedRows inv.resources).map Resource.id)
    {n : Node} (hn : n ∈ inv.eagerTree.nodes) (hbelow : inv.Below p n.id) :
    ∃ q, n.parentId = some q ∧ (q = NodeId.resource p ∨ NodeId.IsFolderBelow p q) := by
  obtain ⟨r, hr, hnode⟩ := Surroundings.parentId_of_mem_build _ hn
  have hrow (hid : n.id = NodeId.resource r.id) : r.parentId = some p := by
    rcases hbelow with hfolder | ⟨c, hc, hparent, hcid⟩
    · exact absurd hid (hfolder.ne_resource r.id)
    · have heq : c = r := List.inj_on_of_nodup_map hids hc (mem_of_mem_placedRows hids hr)
        (NodeId.resource_inj.mp (hcid.symm.trans hid))
      exact heq ▸ hparent
  rcases hnode with ⟨hanchor, hid, -⟩ | ⟨q, hanchor, hid, hparent⟩
  · have hsome : (inv.surroundings []).anchorAmong inv.resources r = some p := by
      refine (Surroundings.anchorAmong_eq_some_iff _).mpr ⟨hrow hid, .inl ?_⟩
      obtain ⟨a, ha, rfl⟩ := List.mem_map.mp hp
      exact List.mem_map_of_mem (mem_firstRows_of_mem_placedRows ha)
    simp [hsome] at hanchor
  · have hqp : q = p := by
      rcases hid with hid | hfolder
      · exact Option.some.inj
          (((Surroundings.anchorAmong_eq_some_iff _).mp hanchor).1.symm.trans (hrow hid))
      · rcases hbelow with hp | ⟨c, -, -, hcid⟩
        · exact hfolder.anchor_unique hp
        · exact absurd hcid (hfolder.ne_resource c.id)
    exact hqp ▸ hparent

theorem node?_eagerTree_root {r : Resource} (hr : r ∈ inv.resources) (htop : r.parentId = none) :
    inv.eagerTree.node? (NodeId.resource r.id) =
      some ((inv.surroundings []).resourceNode none r) :=
  node?_build_root (mem_placedRows_of_root hids hr htop) htop

/-- A page holds the resources whose children it has asked for. -/
theorem holds_of_opened {c : Client} (hc : c.Agrees inv) {p : ResourceId}
    (hopen : c.Opened inv p) : c.Holds p := by
  rcases hopen with hroot | hexpanded
  · obtain ⟨r, hr, htop, rfl⟩ := mem_rootIds_iff.mp hroot
    have hnode := node?_eagerTree_root hids hr htop
    exact List.mem_map.mpr ⟨_, (hc.mem_iff _).mpr
      ⟨List.mem_of_find?_eq_some hnode, .inl ⟨r, hr, htop, rfl⟩⟩, rfl⟩
  · exact hc.expanded_held p hexpanded

/-- The parent of what a page holds is on the page. -/
theorem parent_held {c : Client} (hc : c.Agrees inv) {p : ResourceId} (hopen : c.Opened inv p)
    {n : Node} (hn : n ∈ inv.eagerTree.nodes) (hbelow : inv.Below p n.id) :
    ∃ m ∈ c.nodes, n.parentId = some m.id := by
  have hholds := holds_of_opened hids hc hopen
  obtain ⟨r, hr, -, rfl⟩ := mem_placedRows_of_holds hids hc hholds
  obtain ⟨q, hq, hown | hfolder⟩ :=
    parentId_of_below hids (List.mem_map_of_mem hr) hn hbelow
  · obtain ⟨m, hm, hid⟩ := List.mem_map.mp hholds
    exact ⟨m, hm, by rw [hq, hown, hid]⟩
  · obtain ⟨before, after, hsplit⟩ := List.append_of_mem hn
    obtain ⟨-, hmem⟩ := inOrder_eagerTree.parent before n after hsplit q hq
    obtain ⟨m, hm, rfl⟩ := List.mem_map.mp (hmem.resolve_right List.not_mem_nil)
    refine ⟨m, (hc.mem_iff m).mpr ⟨?_, .inr ⟨r.id, hopen, .inl hfolder⟩⟩, hq⟩
    rw [hsplit]
    exact List.mem_append_left _ hm

/-- What a page holds lies below roots. -/
theorem rooted_of_mem {c : Client} (hc : c.Agrees inv) {n : Node} (hn : n ∈ c.nodes) :
    Rooted inv n := by
  suffices ∀ n ∈ inv.eagerTree.nodes, n ∈ c.nodes → Rooted inv n from
    this n ((hc.mem_iff n).mp hn).1 hn
  refine inOrder_eagerTree.parent_induction fun n hn ih hheld => ?_
  rcases ((hc.mem_iff n).mp hheld).2 with ⟨r, hr, htop, hid⟩ | ⟨p, hopen, hbelow⟩
  · have hnode := mem_eagerTree_iff.mp hn
    rw [hid, node?_eagerTree_root hids hr htop] at hnode
    exact .root hn hr htop hid (by rw [← Option.some.inj hnode]; rfl)
  · obtain ⟨m, hm, hparent⟩ := parent_held hids hc hopen hn hbelow
    exact .under hn (ih m ((hc.mem_iff m).mp hm).1 hparent hm) hparent

/-- A page on which all resources are expanded holds what lies below roots. -/
theorem mem_of_rooted {c : Client} (hc : c.Agrees inv)
    (hall : ∀ p, c.Holds p → p ∈ c.expanded) {n : Node} (hn : Rooted inv n) : n ∈ c.nodes := by
  induction hn with
  | root mem row top id parent => exact (hc.mem_iff _).mpr ⟨mem, .inl ⟨_, row, top, id⟩⟩
  | @under n m mem above parent ih =>
    obtain ⟨r, hr, ⟨-, -, hnone⟩ | ⟨p, hanchor, hid, q, hq, hparent⟩⟩ :=
      Surroundings.parentId_of_mem_build _ mem
    · simp [parent] at hnone
    · obtain rfl : m.id = q := Option.some.inj (parent.symm.trans hq)
      have hrow := ((Surroundings.anchorAmong_eq_some_iff _).mp hanchor).1
      have hbelow : inv.Below p n.id := below_of_row (mem_of_mem_placedRows hids hr) hrow hid
      have hopen : c.Opened inv p := by
        rcases hparent with hown | hfolder
        · have hholds : c.Holds p := by
            rw [Client.Holds, ← hown]
            exact List.mem_map_of_mem ih
          exact .inr (hall p hholds)
        · exact hc.opened_of_folder ih hfolder
      exact (hc.mem_iff n).mpr ⟨mem, .inr ⟨p, hopen, hbelow⟩⟩

end Steps

/-- Loading in steps refines building at once: no step fails, what a page holds is as in the tree
built at once, and a page with everything expanded holds all that lies below roots. -/
theorem lazy_tree_refines_eager (inv : Inventory) (hids : (inv.resources.map Resource.id).Nodup) :
    (∃ b, inv.resourceTree none [] = .ok b) ∧
    ∀ c, Loaded inv c →
      (∀ p rendered, c.Holds p → (∀ id, id ∈ rendered ↔ id ∈ c.ids) →
        ∃ b, inv.resourceTree (some p) rendered = .ok b) ∧
      (∀ n ∈ c.nodes, inv.eagerTree.node? n.id = some n) ∧
      ((∀ p, c.Holds p → p ∈ c.expanded) →
        ∀ n, n ∈ c.nodes ↔ n ∈ inv.eagerTree.nodes ∧ Rooted inv n) := by
  refine ⟨⟨_, inv.resourceTree_none []⟩, fun c hc => ?_⟩
  have hagrees := agrees_of_loaded hids hc
  refine ⟨fun p rendered hp _ => ?_, fun n hn => ?_, fun hall n => ?_⟩
  · obtain ⟨r, -, hr, rfl⟩ := mem_placedRows_of_holds hids hagrees hp
    exact ⟨_, inv.resourceTree_some rendered (resource?_of_mem hids hr)⟩
  · exact mem_eagerTree_iff.mp ((hagrees.mem_iff n).mp hn).1
  · constructor
    · intro hn
      exact ⟨((hagrees.mem_iff n).mp hn).1, rooted_of_mem hids hagrees hn⟩
    · rintro ⟨-, hrooted⟩
      exact mem_of_rooted hids hagrees hall hrooted

namespace Looping

def row (id : Int32) (parent : Option Int32) (typeId : Int32) : Resource :=
  ⟨⟨id⟩, "row", none, parent.map ResourceId.mk, ⟨typeId⟩, .up, none⟩

def catalog : Catalog where
  types :=
    [⟨⟨1⟩, "Host", "OS", .platform, none, true, none, []⟩,
      ⟨⟨2⟩, "Pool", "Web", .server, none, true, some ⟨20⟩, []⟩,
      ⟨⟨3⟩, "Log", "Web", .service, none, true, some ⟨21⟩, []⟩,
      ⟨⟨4⟩, "Site", "Web", .service, none, false, none, []⟩,
      ⟨⟨5⟩, "Site", "Mail", .service, none, false, none, []⟩]
  subCategories := [⟨⟨20⟩, "Inner", some ⟨21⟩⟩, ⟨⟨21⟩, "Outer", some ⟨20⟩⟩]

/-- Sub-categories in a circle, two folders with one name, a row before its parent, an orphan and a
row that is its own parent. -/
def inventory : Inventory :=
  { Inventory.empty with
    catalog
    resources := [row 3 (some 2) 4, row 1 none 1, row 2 (some 1) 2, row 4 (some 2) 5,
      row 5 (some 1) 3, row 6 (some 9) 1, row 7 (some 7) 1] }

def visit (c : Client) (r : Resource) : Client := c.expand r.id (inventory.stepTree c.ids r)

def top : Client := ⟨inventory.firstTree.nodes, []⟩

def below : Client := visit top (row 2 (some 1) 2)

/-- The page once everything on it is expanded. -/
def page : Client :=
  visit (visit (visit (visit below (row 3 (some 2) 4)) (row 4 (some 2) 5)) (row 1 none 1))
    (row 5 (some 1) 3)

theorem loaded_visit {c : Client} {r : Resource} (h : Loaded inventory c)
    (hr : inventory.resource? r.id = some r) (hholds : c.Holds r.id) :
    Loaded inventory (visit c r) :=
  .step h hholds (fun _ => Iff.rfl) (inventory.resourceTree_some c.ids hr)

theorem ids_top : top.ids =
    [⟨"1"⟩, ⟨"subcat_21_1"⟩, ⟨"subcat_20_1"⟩, ⟨"2"⟩, ⟨"5"⟩] := by cbv

theorem ids_below : below.ids = top.ids ++
    [⟨"autogroup_4_2"⟩, ⟨"3"⟩, ⟨"autogroup_5_2"⟩, ⟨"4"⟩] := by cbv

theorem loaded_page : Loaded inventory page := by
  have hbelow (r : Resource) (h : NodeId.resource r.id ∈ top.ids) : below.Holds r.id := by
    rw [Client.Holds, ids_below]
    exact List.mem_append_left _ h
  have htop : Loaded inventory top := .first (inventory.resourceTree_none [])
  have h2 : Loaded inventory below :=
    loaded_visit htop (by decide) (by rw [Client.Holds, ids_top]; decide_cbv)
  have h3 := loaded_visit (r := row 3 (some 2) 4) h2 (by decide)
    (by rw [Client.Holds, ids_below]; decide_cbv)
  have h4 := loaded_visit (r := row 4 (some 2) 5) h3 (by decide)
    (Client.holds_expand _ (by rw [Client.Holds, ids_below]; decide_cbv))
  have h1 := loaded_visit (r := row 1 none 1) h4 (by decide)
    (Client.holds_expand _ (Client.holds_expand _ (hbelow _ (by rw [ids_top]; decide_cbv))))
  exact loaded_visit (r := row 5 (some 1) 3) h1 (by decide)
    (Client.holds_expand _ (Client.holds_expand _ (Client.holds_expand _
      (hbelow _ (by rw [ids_top]; decide_cbv)))))

theorem row_expanded : ∀ r ∈ inventory.resources,
    NodeId.resource r.id ∈ page.ids → r.id ∈ page.expanded := by decide_cbv

end Looping

theorem lazy_tree_refines_eager_looping :
    (Looping.inventory.resources.map Resource.id).Nodup ∧
      Loaded Looping.inventory Looping.page ∧
      (∀ p, Looping.page.Holds p → p ∈ Looping.page.expanded) ∧
      (∀ n ∈ Looping.page.nodes, Looping.inventory.eagerTree.node? n.id = some n) ∧
      ∀ n, n ∈ Looping.page.nodes ↔
        n ∈ Looping.inventory.eagerTree.nodes ∧ Rooted Looping.inventory n := by
  have hids : (Looping.inventory.resources.map Resource.id).Nodup := by decide
  have hall (p : ResourceId) (hp : Looping.page.Holds p) : p ∈ Looping.page.expanded := by
    obtain ⟨r, -, hr, rfl⟩ :=
      mem_placedRows_of_holds hids (agrees_of_loaded hids Looping.loaded_page) hp
    exact Looping.row_expanded r hr hp
  obtain ⟨-, hrefines⟩ := lazy_tree_refines_eager Looping.inventory hids
  obtain ⟨-, hnodes, hcomplete⟩ := hrefines Looping.page Looping.loaded_page
  exact ⟨hids, Looping.loaded_page, hall, hnodes, hcomplete hall⟩

end FleetConsole.Inventory
