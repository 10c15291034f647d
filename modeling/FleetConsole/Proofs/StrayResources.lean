import FleetConsole.Proofs.LazyTree
import FleetConsole.Proofs.RowAccounting

/-! Which resources come to a page that loads the tree in steps. A resource is sent with the top or
below its parent; a stray one, whose parent the inventory does not know, is sent by no step, although
the build of all resources shows it at the top and remarks it. -/
namespace FleetConsole.Inventory

open FleetConsole.Tree

variable {inv : Inventory}

/-- The answer to a step, made for a page that shows nothing, has the node of a resource. -/
def Sends (inv : Inventory) (parent : Option ResourceId) (r : Resource) : Prop :=
  ∃ b, inv.resourceTree parent [] = .ok b ∧ ∃ n ∈ b.nodes, (inv.surroundings []).Shows r n

/-- A resource is sent with the top or with the children of its parent. -/
def IsSent (inv : Inventory) (r : Resource) : Prop :=
  inv.Sends none r ∨ ∃ p, r.parentId = some p ∧ inv.Sends (some p) r

def IsStray (inv : Inventory) (r : Resource) : Prop :=
  ∃ p, r.parentId = some p ∧ ∀ q ∈ inv.resources, q.id ≠ p

/-- Every answer to a step is that of the top or of the children of a known resource. -/
theorem cases_of_resourceTree {parent : Option ResourceId} {rendered : List NodeId} {b : Build}
    (h : inv.resourceTree parent rendered = .ok b) :
    (parent = none ∧ b = (inv.surroundings rendered).build inv.topBatch) ∨
      ∃ q ∈ inv.resources, parent = some q.id ∧ b = inv.stepTree rendered q := by
  cases parent with
  | none =>
    rw [inv.resourceTree_none] at h
    exact .inl ⟨rfl, (Except.ok.inj h).symm⟩
  | some id =>
    cases hfind : inv.resource? id with
    | none =>
      rw [inv.resourceTree_unknown rendered hfind] at h
      cases h
    | some q =>
      have hid : q.id = id := by simpa using List.find?_some hfind
      rw [inv.resourceTree_some rendered hfind] at h
      refine .inr ⟨q, List.mem_of_find?_eq_some hfind, by rw [hid], ?_⟩
      rw [stepTree, hid]
      exact (Except.ok.inj h).symm

theorem IsStray.not_isCircular {r : Resource} (h : inv.IsStray r) :
    ¬IsCircular inv.resources r := by
  obtain ⟨p, hp, hunknown⟩ := h
  have hnone (q : Resource) : ¬IsParentRow inv.resources r q := by
    rintro ⟨p', hp', hfind⟩
    obtain rfl : p = p' := Option.some.inj (hp.symm.trans hp')
    exact hunknown q (List.mem_of_find?_eq_some hfind) (by simpa using List.find?_some hfind)
  rintro ⟨q, hreach, hcircle⟩
  rcases hreach.cases_head with rfl | ⟨q', hstep, -⟩
  · obtain ⟨q', hstep, -⟩ := Relation.TransGen.head'_iff.mp hcircle
    exact hnone q' hstep
  · exact hnone q' hstep

section Distinct

variable (hids : (inv.resources.map Resource.id).Nodup)

include hids

/-- A resource that is on no circle in the inventory is on none in a batch of it. -/
theorem mem_placedRows_filter {r : Resource} (hr : r ∈ inv.resources) {P : Resource → Bool}
    (hP : P r = true) (hfree : ¬IsCircular inv.resources r) :
    r ∈ placedRows (inv.resources.filter P) := by
  refine mem_placedRows_iff.mpr ⟨find?_row hids hr hP, fun hcircular => hfree ?_⟩
  refine hcircular.mono fun a b => ?_
  rintro ⟨p, hp, hfind⟩
  obtain rfl : b.id = p := by simpa using List.find?_some hfind
  exact ⟨b.id, hp, resource?_of_mem hids (List.mem_of_mem_filter (List.mem_of_find?_eq_some hfind))⟩

theorem sends_top {r : Resource} (hr : r ∈ inv.resources) (htop : r.parentId = none) :
    inv.Sends none r :=
  ⟨_, inv.resourceTree_none [], Surroundings.exists_shows (mem_placedRows_topBatch hids hr htop)⟩

theorem sends_below {r q : Resource} (hr : r ∈ inv.resources) (hq : q ∈ inv.resources)
    (hparent : r.parentId = some q.id) (hfree : ¬IsCircular inv.resources r) :
    inv.Sends (some q.id) r := by
  have hplaced : r ∈ placedRows (inv.childrenOf q.id) :=
    mem_placedRows_filter hids hr (by simpa using hparent) hfree
  obtain ⟨n, hn, hshows⟩ :=
    Surroundings.exists_shows (s := (inv.surroundings []).withAnchor q) hplaced
  -- an anchor changes neither what the catalog says nor what is locked
  refine ⟨_, inv.resourceTree_some [] (resource?_of_mem hids hq), n, hn, ?_⟩
  exact ⟨hshows.id, hshows.kind, hshows.name, hshows.description, hshows.isFolder, hshows.locked⟩

theorem isSent_of_not_isStray {r : Resource} (hr : r ∈ inv.resources)
    (hfree : ¬IsCircular inv.resources r) (hknown : ¬inv.IsStray r) : inv.IsSent r := by
  cases hparent : r.parentId with
  | none => exact .inl (sends_top hids hr hparent)
  | some p =>
    have hrow : ∃ q ∈ inv.resources, q.id = p := by
      by_contra hunknown
      exact hknown ⟨p, hparent, fun q hq hid => hunknown ⟨q, hq, hid⟩⟩
    obtain ⟨q, hq, rfl⟩ := hrow
    exact .inr ⟨q.id, hparent, sends_below hids hr hq hparent hfree⟩

/-- No step has the node of a stray resource, whatever the page shows already. -/
theorem notMem_of_isStray {r : Resource} (hr : r ∈ inv.resources) (hstray : inv.IsStray r)
    {parent : Option ResourceId} {rendered : List NodeId} {b : Build}
    (h : inv.resourceTree parent rendered = .ok b) :
    NodeId.resource r.id ∉ b.nodes.map Node.id := by
  obtain ⟨p, hp, hunknown⟩ := hstray
  have hrow {P : Resource → Bool} (hmem : r.id ∈ (placedRows (inv.resources.filter P)).map
      Resource.id) : P r = true := by
    obtain ⟨q, hq, hid⟩ := List.mem_map.mp hmem
    obtain ⟨hqrow, hPq⟩ := mem_of_mem_placedRows_filter hids hq
    exact List.inj_on_of_nodup_map hids hqrow hr hid ▸ hPq
  intro hnode
  rcases cases_of_resourceTree h with ⟨-, rfl⟩ | ⟨q, hq, -, rfl⟩
  · have hroot : p ∈ inv.rootIds := by
      simpa [hp] using hrow (Surroundings.id_mem_placedRows_of_mem_build hnode)
    obtain ⟨q, hq, -, hid⟩ := mem_rootIds_iff.mp hroot
    exact hunknown q hq hid
  · have hchild : r.parentId = some q.id := by
      simpa using hrow (Surroundings.id_mem_placedRows_of_mem_build hnode)
    exact hunknown q hq (Option.some.inj (hchild.symm.trans hp))

theorem not_isSent_of_isStray {r : Resource} (hr : r ∈ inv.resources) (hstray : inv.IsStray r) :
    ¬inv.IsSent r := by
  have hnone (parent : Option ResourceId) : ¬inv.Sends parent r := by
    rintro ⟨b, hb, n, hn, hshows⟩
    exact notMem_of_isStray hids hr hstray hb (hshows.id ▸ List.mem_map_of_mem hn)
  rintro (htop | ⟨p, -, hbelow⟩)
  · exact hnone none htop
  · exact hnone (some p) hbelow

/-- Whoever is placed by a step finds the parent: at the top it is a root, below a resource it is
this one. -/
theorem orphanReanchored_notMem {parent : Option ResourceId} {rendered : List NodeId} {b : Build}
    (h : inv.resourceTree parent rendered = .ok b) (id p : ResourceId) :
    .orphanReanchored id p ∉ b.diagnostics := by
  intro hremark
  have hbatch (P : Resource → Bool) : ((inv.resources.filter P).map Resource.id).Nodup :=
    hids.sublist (List.filter_sublist.map _)
  rcases cases_of_resourceTree h with ⟨-, rfl⟩ | ⟨q, -, -, rfl⟩
  · obtain ⟨r, hr, -, hp, hunknown, -⟩ :=
      (Surroundings.orphanReanchored_mem_iff (hbatch _)).mp hremark
    have htop := (mem_of_mem_placedRows_filter hids hr).2
    obtain ⟨q, hq, hqtop, rfl⟩ := mem_rootIds_iff.mp (by simpa [hp] using htop)
    exact hunknown (List.mem_map_of_mem (List.mem_filter.mpr ⟨hq, by simp [hqtop]⟩))
  · obtain ⟨r, hr, -, hp, -, hhidden⟩ :=
      (Surroundings.orphanReanchored_mem_iff (hbatch _)).mp hremark
    have hparent : r.parentId = some q.id := by
      simpa using (mem_of_mem_placedRows_filter hids hr).2
    obtain rfl : q.id = p := Option.some.inj (hparent.symm.trans hp)
    exact hhidden List.mem_cons_self

/-- The build of all resources puts a stray one at the top, with a remark. -/
theorem eagerTree_of_isStray {r : Resource} (hr : r ∈ inv.resources) (hstray : inv.IsStray r) :
    inv.eagerTree.node? (NodeId.resource r.id) =
        some ((inv.surroundings []).resourceNode none r) ∧
      ∃ p, r.parentId = some p ∧ .orphanReanchored r.id p ∈ inv.eagerTree.diagnostics := by
  have hplaced : r ∈ placedRows inv.resources :=
    mem_placedRows_iff.mpr ⟨resource?_of_mem hids hr, hstray.not_isCircular⟩
  obtain ⟨p, hp, hunknown⟩ := hstray
  have habsent : p ∉ inv.resources.map Resource.id := by simpa using hunknown
  have hanchor := (Surroundings.anchorAmong_eq_none_iff (s := inv.surroundings []) hids hp).mpr
    ⟨habsent, List.not_mem_nil⟩
  refine ⟨?_, p, hp, ?_⟩
  · rw [eagerTree, Surroundings.node?_resource _ hplaced, hanchor]
    rfl
  · exact (Surroundings.orphanReanchored_mem_iff hids).mpr
      ⟨r, hplaced, rfl, hp, habsent, List.not_mem_nil⟩

end Distinct

/-- Loading in steps sends every resource that is on or below no circle of parents, except the
strays. These are in no answer, and no answer remarks them, though the build of all resources shows
each at the top with a remark. -/
theorem steps_send_all_but_strays (inv : Inventory)
    (hids : (inv.resources.map Resource.id).Nodup) :
    (∀ r ∈ inv.resources, ¬IsCircular inv.resources r → (inv.IsSent r ↔ ¬inv.IsStray r)) ∧
    (∀ r ∈ inv.resources, inv.IsStray r →
      (∀ parent rendered b, inv.resourceTree parent rendered = .ok b →
        NodeId.resource r.id ∉ b.nodes.map Node.id) ∧
      inv.eagerTree.node? (NodeId.resource r.id) =
        some ((inv.surroundings []).resourceNode none r) ∧
      ∃ p, r.parentId = some p ∧ .orphanReanchored r.id p ∈ inv.eagerTree.diagnostics) ∧
    ∀ parent rendered b, inv.resourceTree parent rendered = .ok b →
      ∀ id p, .orphanReanchored id p ∉ b.diagnostics := by
  refine ⟨fun r hr hfree => ⟨fun hsent hstray => ?_, isSent_of_not_isStray hids hr hfree⟩,
    fun r hr hstray => ⟨fun parent rendered b h => ?_, eagerTree_of_isStray hids hr hstray⟩,
    fun parent rendered b h => orphanReanchored_notMem hids h⟩
  · exact not_isSent_of_isStray hids hr hstray hsent
  · exact notMem_of_isStray hids hr hstray h

theorem steps_send_all_but_strays_looping :
    (Looping.inventory.resources.map Resource.id).Nodup ∧
      Looping.inventory.IsSent (Looping.row 3 (some 2) 4) ∧
      ¬Looping.inventory.IsSent (Looping.row 6 (some 9) 1) := by
  have hids : (Looping.inventory.resources.map Resource.id).Nodup := by decide
  have hchild : ¬IsCircular Looping.inventory.resources (Looping.row 3 (some 2) 4) :=
    (mem_placedRows_iff.mp (by decide_cbv)).2
  have hknown : ¬Looping.inventory.IsStray (Looping.row 3 (some 2) 4) := by
    rintro ⟨p, hp, hunknown⟩
    obtain rfl := Option.some.inj hp
    exact hunknown (Looping.row 2 (some 1) 2) (by decide) rfl
  have hstray : Looping.inventory.IsStray (Looping.row 6 (some 9) 1) := ⟨⟨9⟩, rfl, by decide⟩
  obtain ⟨hsent, -⟩ := steps_send_all_but_strays Looping.inventory hids
  exact ⟨hids, (hsent _ (by decide) hchild).mpr hknown,
    fun h => (hsent _ (by decide) hstray.not_isCircular).mp h hstray⟩

namespace LostParent

def server : ResourceType := ⟨⟨1⟩, "Server", "JBossAS", .server, none, true, none, []⟩

def resource : Resource := ⟨⟨5⟩, "stray", none, some ⟨99⟩, ⟨1⟩, .unknown, none⟩

def inventory : Inventory :=
  { Inventory.empty with catalog := ⟨[server], []⟩, resources := [resource] }

theorem isStray : inventory.IsStray resource := ⟨⟨99⟩, rfl, by decide⟩

/-- A resource alone on no circle of parents that no step sends. -/
theorem resource_not_sent :
    (inventory.resources.map Resource.id).Nodup ∧ resource ∈ inventory.resources ∧
      ¬IsCircular inventory.resources resource ∧ ¬inventory.IsSent resource := by
  have hids : (inventory.resources.map Resource.id).Nodup := by decide
  have hmem : resource ∈ inventory.resources := List.mem_cons_self
  exact ⟨hids, hmem, isStray.not_isCircular, not_isSent_of_isStray hids hmem isStray⟩

end LostParent

end FleetConsole.Inventory
