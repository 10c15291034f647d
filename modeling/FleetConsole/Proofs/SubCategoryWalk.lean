import FleetConsole.Proofs.FilledFolders
import FleetConsole.Proofs.LeastArrangement
import FleetConsole.Proofs.NodeParents
import FleetConsole.Tree.Clusters

/-! The walk up from a sub-category, round by round. Whatever links there are, it meets as many
sub-categories as can be met without meeting one twice, and it says why it went no further. The tree
of resources remarks just that, and the tree of a group files under the same sub-categories. -/
namespace FleetConsole

namespace Catalog

open Tree.ParentFirst (walk? walk?_succ_of_steps)

variable {c : Catalog}

/-- The link from a sub-category to the one above it. -/
def parentLink? (c : Catalog) (id : SubCategoryId) : Option SubCategoryId :=
  (c.subCategory? id).bind SubCategory.parentId

/-- The id that so many links lead to, whether the catalog knows it or not. -/
def above? (c : Catalog) (id : SubCategoryId) (n : Nat) : Option SubCategoryId :=
  walk? c.parentLink? n id

/-- Sub-categories as the links lead from one to the next, no two of them the same. -/
structure LeadsUp (c : Catalog) (id : SubCategoryId) (met : List SubCategory) : Prop where
  above : ∀ k s, met[k]? = some s → c.above? id k = some s.id
  known : ∀ s ∈ met, c.subCategory? s.id = some s
  nodup : (met.map SubCategory.id).Nodup

/-- How far a walk has got: what was met, and the id that comes next. -/
structure Ascent where
  met : List SubCategory
  next : Option SubCategoryId
  deriving DecidableEq, Repr

/-- One round of a walk. It ends where there is nothing above, where an id was met before, and where
the catalog does not know an id. -/
def ascend? (c : Catalog) (a : Ascent) : Option Ascent :=
  a.next.bind fun id =>
    if id ∈ a.met.map SubCategory.id then none
    else (c.subCategory? id).map fun s => ⟨a.met ++ [s], s.parentId⟩

/-- What the walk would have met next. -/
def ChainEnd.next? : ChainEnd → Option SubCategoryId
  | .top => none
  | .repeated id | .unknown id => some id

/-- The reason for which a walk ended is one. -/
def ChainEnd.Fits (c : Catalog) (met : List SubCategory) : ChainEnd → Prop
  | .top => True
  | .repeated id => id ∈ met.map SubCategory.id
  | .unknown id => c.subCategory? id = none

section Rounds

theorem walk?_succ_eq_bind {α : Type} (next : α → Option α) (n : Nat) (a : α) :
    walk? next (n + 1) a = (walk? next n a).bind next := by
  induction n generalizing a with
  | zero => simp [walk?]
  | succ n ih =>
    rw [walk?, walk?, Option.bind_assoc]
    congr 1
    funext b
    exact ih b

theorem ascend?_of_new {met : List SubCategory} {id : SubCategoryId} {s : SubCategory}
    (hnew : id ∉ met.map SubCategory.id) (hknown : c.subCategory? id = some s) :
    c.ascend? ⟨met, some id⟩ = some ⟨met ++ [s], s.parentId⟩ := by
  rw [ascend?, Option.bind_some, if_neg hnew, hknown, Option.map_some]

/-- What a round does: it meets the sub-category that comes next. -/
theorem ascend?_eq_some_iff {a b : Ascent} : c.ascend? a = some b ↔
    ∃ id s, a.next = some id ∧ id ∉ a.met.map SubCategory.id ∧ c.subCategory? id = some s ∧
      b = ⟨a.met ++ [s], s.parentId⟩ := by
  constructor
  · intro h
    obtain ⟨id, hnext, hround⟩ := Option.bind_eq_some_iff.mp h
    by_cases hmet : id ∈ a.met.map SubCategory.id
    · simp only [if_pos hmet, reduceCtorEq] at hround
    · simp only [if_neg hmet] at hround
      obtain ⟨s, hknown, rfl⟩ := Option.map_eq_some_iff.mp hround
      exact ⟨id, s, hnext, hmet, hknown, rfl⟩
  · rintro ⟨id, s, hnext, hnew, hknown, rfl⟩
    obtain ⟨met, next⟩ := a
    obtain rfl : next = some id := hnext
    exact ascend?_of_new hnew hknown

/-- What is found among the unmet was not met, and is what its id stands for. -/
theorem of_find?_unmet {unmet met : List SubCategory} {id : SubCategoryId} {s : SubCategory}
    (hunmet : ∀ a, unmet.find? (·.id = a) =
      if a ∈ met.map SubCategory.id then none else c.subCategory? a)
    (h : unmet.find? (·.id = id) = some s) :
    id ∉ met.map SubCategory.id ∧ c.subCategory? id = some s := by
  rw [hunmet] at h
  split at h
  · simp at h
  · rename_i hnew
    exact ⟨hnew, h⟩

/-- The rounds of a walk that has met `met` already are those of the walk through what is unmet. -/
theorem walk?_ascend? {unmet met : List SubCategory} (id : SubCategoryId)
    (hunmet : ∀ a, unmet.find? (·.id = a) =
      if a ∈ met.map SubCategory.id then none else c.subCategory? a) :
    walk? c.ascend? (c.chainAmong unmet id).members.length ⟨met, some id⟩ =
        some ⟨met ++ (c.chainAmong unmet id).members, (c.chainAmong unmet id).ending.next?⟩ ∧
      (c.chainAmong unmet id).ending.Fits c (met ++ (c.chainAmong unmet id).members) := by
  induction unmet, id using Catalog.chainAmong.induct c generalizing met with
  | case1 unmet id hnone =>
    -- What is not found was met before if the catalog has it.
    rw [chainAmong_of_none hnone]
    cases hknown : c.subCategory? id with
    | none => simp [walk?, ChainEnd.next?, ChainEnd.Fits, hknown]
    | some s =>
      have hmet : id ∈ met.map SubCategory.id := by
        by_contra hnew
        rw [hunmet, if_neg hnew, hknown] at hnone
        cases hnone
      simpa [walk?, ChainEnd.next?, ChainEnd.Fits] using hmet
  | case2 unmet id first hfirst hparent =>
    obtain ⟨hnew, hknown⟩ := of_find?_unmet hunmet hfirst
    rw [chainAmong_of_some hfirst, hparent]
    simp [walk?, ascend?_of_new hnew hknown, hparent, ChainEnd.next?, ChainEnd.Fits]
  | case3 unmet id first hfirst parent hparent ih =>
    obtain ⟨hnew, hknown⟩ := of_find?_unmet hunmet hfirst
    have hround : c.ascend? ⟨met, some id⟩ = some ⟨met ++ [first], some parent⟩ := by
      rw [ascend?_of_new hnew hknown, hparent]
    have hrest := @ih (met ++ [first]) fun a => by
      have hid : first.id = id := id_of_subCategory? hknown
      rw [find?_without, hunmet]
      by_cases ha : a = id <;> simp [ha, hid]
    rw [chainAmong_of_some hfirst, hparent]
    simpa [walk?_succ_of_steps hround] using hrest

theorem walk?_chain (id : SubCategoryId) :
    walk? c.ascend? (c.chain id).members.length ⟨[], some id⟩ =
        some ⟨(c.chain id).members, (c.chain id).ending.next?⟩ ∧
      (c.chain id).ending.Fits c (c.chain id).members := by
  have hunmet : ∀ a, c.subCategories.find? (·.id = a) =
      if a ∈ [].map SubCategory.id then none else c.subCategory? a := by
    simp [subCategory?]
  simpa [chain] using walk?_ascend? id hunmet

end Rounds

section Climb

open FleetConsole.Tree (climb climb_none climb_of_visited climb_of_unknown climb_of_known)

variable {visited : List SubCategoryId} {a b : Ascent}

/-- The walk of a tree of a group makes the rounds that can be made. -/
theorem climb_of_ascend? (hvisited : ∀ id, id ∈ visited ↔ id ∈ a.met.map SubCategory.id)
    (hround : c.ascend? a = some b) : ∃ id, climb c visited a.met a.next =
        climb c (id :: visited) b.met b.next ∧
      ∀ other, other ∈ id :: visited ↔ other ∈ b.met.map SubCategory.id := by
  obtain ⟨id, s, hnext, hnew, hknown, rfl⟩ := ascend?_eq_some_iff.mp hround
  have hid : s.id = id := id_of_subCategory? hknown
  refine ⟨id, ?_, fun other => ?_⟩
  · rw [hnext, climb_of_known ((hvisited id).not.mpr hnew) hknown]
  · simp [hvisited, hid, or_comm]

/-- And it ends where no other can be made. -/
theorem climb_of_ascend?_eq_none (hvisited : ∀ id, id ∈ visited ↔ id ∈ a.met.map SubCategory.id)
    (hround : c.ascend? a = none) : climb c visited a.met a.next = a.met := by
  obtain ⟨met, next⟩ := a
  cases next with
  | none => exact climb_none
  | some id =>
    by_cases hmet : id ∈ visited
    · exact climb_of_visited hmet
    · cases hknown : c.subCategory? id with
      | none => exact climb_of_unknown hknown
      | some s =>
        rw [ascend?_of_new ((hvisited id).not.mp hmet) hknown] at hround
        cases hround

theorem climb_of_walk? {n : Nat}
    (hvisited : ∀ id, id ∈ visited ↔ id ∈ a.met.map SubCategory.id)
    (hrounds : walk? c.ascend? n a = some b) (hlast : c.ascend? b = none) :
    climb c visited a.met a.next = b.met := by
  induction n generalizing a visited with
  | zero =>
    obtain rfl : a = b := Option.some.inj hrounds
    exact climb_of_ascend?_eq_none hvisited hlast
  | succ n ih =>
    obtain ⟨mid, hround, hrest⟩ := Option.bind_eq_some_iff.mp hrounds
    obtain ⟨id, hclimb, hmet⟩ := climb_of_ascend? hvisited hround
    rw [hclimb, ih hmet hrest]

end Climb

section Links

variable {id : SubCategoryId}

/-- Whatever a walk has met so far, the links lead along it and on to the id that comes next. -/
structure Ascent.Sound (c : Catalog) (id : SubCategoryId) (a : Ascent) : Prop where
  leadsUp : c.LeadsUp id a.met
  next : a.next = c.above? id a.met.length

theorem Ascent.sound_start : Ascent.Sound c id ⟨[], some id⟩ :=
  ⟨⟨by simp, by simp, by simp⟩, rfl⟩

/-- A round keeps to the links. -/
theorem Ascent.Sound.ascend? {a b : Ascent} (h : a.Sound c id) (hround : c.ascend? a = some b) :
    b.Sound c id := by
  obtain ⟨next, s, hnext, hnew, hknown, rfl⟩ := ascend?_eq_some_iff.mp hround
  have hid : s.id = next := id_of_subCategory? hknown
  have habove : c.above? id a.met.length = some s.id := by rw [← h.next, hnext, hid]
  refine ⟨⟨fun k t hk => ?_, fun t ht => ?_, ?_⟩, ?_⟩
  · rcases lt_trichotomy k a.met.length with hlt | rfl | hgt
    · rw [List.getElem?_append_left hlt] at hk
      exact h.leadsUp.above k t hk
    · obtain rfl : s = t := by simpa using hk
      exact habove
    · rw [List.getElem?_eq_none (by simp; omega)] at hk
      cases hk
  · rcases List.mem_append.mp ht with hmet | hlast
    · exact h.leadsUp.known t hmet
    · obtain rfl := List.mem_singleton.mp hlast
      rw [hid, hknown]
  · rw [List.map_append, List.map_singleton, hid]
    exact h.leadsUp.nodup.append (List.nodup_singleton _) (List.disjoint_singleton.mpr hnew)
  · show s.parentId = c.above? id (a.met ++ [s]).length
    rw [List.length_append, List.length_singleton, above?, walk?_succ_eq_bind, ← above?, habove,
      Option.bind_some, parentLink?, hid, hknown, Option.bind_some]

/-- And so do many rounds. -/
theorem Ascent.Sound.walk? {a b : Ascent} (h : a.Sound c id) {n : Nat}
    (hrounds : Tree.ParentFirst.walk? c.ascend? n a = some b) : b.Sound c id := by
  induction n generalizing b with
  | zero =>
    obtain rfl : a = b := Option.some.inj hrounds
    exact h
  | succ n ih =>
    rw [walk?_succ_eq_bind] at hrounds
    obtain ⟨mid, hmid, hround⟩ := Option.bind_eq_some_iff.mp hrounds
    exact (ih hmid).ascend? hround

theorem sound_chain (id : SubCategoryId) :
    Ascent.Sound c id ⟨(c.chain id).members, (c.chain id).ending.next?⟩ :=
  Ascent.sound_start.walk? (walk?_chain id).1

theorem leadsUp_chain (id : SubCategoryId) : c.LeadsUp id (c.chain id).members :=
  (sound_chain id).leadsUp

theorem next?_chain (id : SubCategoryId) :
    (c.chain id).ending.next? = c.above? id (c.chain id).members.length :=
  (sound_chain id).next

/-- The links lead one way only. -/
theorem LeadsUp.getElem?_eq {met met' : List SubCategory} (h : c.LeadsUp id met)
    (h' : c.LeadsUp id met') {k : Nat} (hk : k < met.length) (hk' : k < met'.length) :
    met[k]? = met'[k]? := by
  have hs := List.getElem?_eq_getElem hk
  have hs' := List.getElem?_eq_getElem hk'
  have hids : met[k].id = met'[k].id :=
    Option.some.inj ((h.above k _ hs).symm.trans (h'.above k _ hs'))
  rw [hs, hs', ← h.known _ (List.getElem_mem hk), ← h'.known _ (List.getElem_mem hk'), hids]

theorem LeadsUp.isPrefix_of_length_le {met met' : List SubCategory} (h : c.LeadsUp id met)
    (h' : c.LeadsUp id met') (hlen : met.length ≤ met'.length) : met <+: met' := by
  rw [List.prefix_iff_getElem?]
  intro k hk
  rw [← List.getElem?_eq_getElem hk, h.getElem?_eq h' hk (by omega)]

/-- Where the walk ended no one gets further without meeting a sub-category twice. -/
theorem LeadsUp.length_le {met : List SubCategory} (h : c.LeadsUp id met) :
    met.length ≤ (c.chain id).members.length := by
  by_contra hlonger
  -- The one behind would be what the walk stopped at, which is met already or not known.
  have hlt : (c.chain id).members.length < met.length := by omega
  have hprefix := (leadsUp_chain id).isPrefix_of_length_le h hlt.le
  have hnext : (c.chain id).ending.next? = some met[(c.chain id).members.length].id := by
    rw [next?_chain]
    exact h.above _ _ (List.getElem?_eq_getElem hlt)
  have hfits := (walk?_chain (c := c) id).2
  cases hending : (c.chain id).ending with
  | top => simp [hending, ChainEnd.next?] at hnext
  | repeated a =>
    rw [hending] at hnext hfits
    obtain rfl : a = _ := Option.some.inj hnext
    obtain ⟨t, ht, hid⟩ := List.mem_map.mp hfits
    obtain ⟨k, hk, rfl⟩ := List.getElem_of_mem ht
    have hapart := List.pairwise_iff_getElem.mp (List.pairwise_map.mp h.nodup) k _
      (hk.trans hlt) hlt hk
    exact absurd (by rw [← hid, hprefix.getElem hk]) hapart
  | unknown a =>
    rw [hending] at hnext hfits
    obtain rfl : a = _ := Option.some.inj hnext
    have hknown := h.known _ (List.getElem_mem hlt)
    rw [show c.subCategory? _ = none from hfits] at hknown
    cases hknown

/-- No more can be met than the catalog has. -/
theorem length_chain_le (id : SubCategoryId) :
    (c.chain id).members.length ≤ c.subCategories.length := by
  have hnodup : (c.chain id).members.Nodup := (nodup_chain id).of_map
  exact (hnodup.subperm fun s hs => mem_of_mem_chainAmong hs).length_le

theorem ending_eq_top_iff : (c.chain id).ending = .top ↔
    c.above? id (c.chain id).members.length = none := by
  rw [← next?_chain]
  cases (c.chain id).ending <;> simp [ChainEnd.next?]

theorem ending_eq_repeated_iff {a : SubCategoryId} : (c.chain id).ending = .repeated a ↔
    c.above? id (c.chain id).members.length = some a ∧
      a ∈ (c.chain id).members.map SubCategory.id := by
  rw [← next?_chain]
  have hfits := (walk?_chain (c := c) id).2
  cases hending : (c.chain id).ending with
  | top => simp [ChainEnd.next?]
  | repeated b =>
    rw [hending] at hfits
    constructor
    · rintro ⟨⟩
      exact ⟨rfl, hfits⟩
    · rintro ⟨⟨⟩, -⟩
      rfl
  | unknown b =>
    rw [hending] at hfits
    refine iff_of_false (by simp) ?_
    rintro ⟨⟨⟩, hmet⟩
    obtain ⟨s, hs, rfl⟩ := List.mem_map.mp hmet
    have hnone : c.subCategory? s.id = none := hfits
    cases hnone.symm.trans (subCategory?_of_mem_chain hs)

theorem ending_eq_unknown_iff {a : SubCategoryId} : (c.chain id).ending = .unknown a ↔
    c.above? id (c.chain id).members.length = some a ∧ c.subCategory? a = none := by
  rw [← next?_chain]
  have hfits := (walk?_chain (c := c) id).2
  cases hending : (c.chain id).ending with
  | top => simp [ChainEnd.next?]
  | repeated b =>
    rw [hending] at hfits
    refine iff_of_false (by simp) ?_
    rintro ⟨⟨⟩, hunknown⟩
    obtain ⟨s, hs, rfl⟩ := List.mem_map.mp hfits
    rw [subCategory?_of_mem_chain hs] at hunknown
    cases hunknown
  | unknown b =>
    rw [hending] at hfits
    constructor
    · rintro ⟨⟩
      exact ⟨rfl, hfits⟩
    · rintro ⟨⟨⟩, -⟩
      rfl

end Links

/-- What the walk up from `id` meets, and why it ends there. -/
structure IsWalk (c : Catalog) (id : SubCategoryId) (chain : Chain) : Prop where
  /-- Each round meets one more sub-category. -/
  rounds : ∃ next, walk? c.ascend? chain.members.length ⟨[], some id⟩ = some ⟨chain.members, next⟩
  stops : walk? c.ascend? (chain.members.length + 1) ⟨[], some id⟩ = none
  length_le : chain.members.length ≤ c.subCategories.length
  leadsUp : c.LeadsUp id chain.members
  longest : ∀ met, c.LeadsUp id met → met <+: chain.members
  top_iff : chain.ending = .top ↔ c.above? id chain.members.length = none
  repeated_iff : ∀ a, chain.ending = .repeated a ↔
    c.above? id chain.members.length = some a ∧ a ∈ chain.members.map SubCategory.id
  unknown_iff : ∀ a, chain.ending = .unknown a ↔
    c.above? id chain.members.length = some a ∧ c.subCategory? a = none

/-- There is no round after the last one. -/
theorem walk?_chain_succ (id : SubCategoryId) :
    walk? c.ascend? ((c.chain id).members.length + 1) ⟨[], some id⟩ = none := by
  rw [Option.eq_none_iff_forall_ne_some]
  intro b hb
  have hlonger := (Ascent.sound_start.walk? hb).leadsUp.length_le
  rw [walk?_succ_eq_bind, (walk?_chain id).1, Option.bind_some] at hb
  obtain ⟨_, s, -, -, -, rfl⟩ := ascend?_eq_some_iff.mp hb
  simp at hlonger

theorem isWalk_chain (id : SubCategoryId) : c.IsWalk id (c.chain id) where
  rounds := ⟨_, (walk?_chain id).1⟩
  stops := walk?_chain_succ id
  length_le := length_chain_le id
  leadsUp := leadsUp_chain id
  longest _ h := h.isPrefix_of_length_le (leadsUp_chain id) h.length_le
  top_iff := ending_eq_top_iff
  repeated_iff _ := ending_eq_repeated_iff
  unknown_iff _ := ending_eq_unknown_iff

/-- The walk of a tree of a group meets the same sub-categories as the walk of a tree of
resources. -/
theorem climb_eq_members (id : SubCategoryId) :
    Tree.climb c [] [] (some id) = (c.chain id).members := by
  have hrounds := (walk?_chain (c := c) id).1
  have hlast := walk?_chain_succ (c := c) id
  rw [walk?_succ_eq_bind, hrounds, Option.bind_some] at hlast
  exact climb_of_walk? (by simp) hrounds hlast

end Catalog

namespace Tree.Surroundings

variable {s : Surroundings} {rows : List Resource}

/-- What the end of a walk gives to remark for the type it is made for. -/
def endingRemark? (typeId : TypeId) : Catalog.ChainEnd → Option Diagnostic
  | .top => none
  | .repeated id => some (.subCategoryCycle typeId id)
  | .unknown id => some (.unknownSubCategory typeId id)

/-- A row that the tree files along the walk up from a sub-category: it is placed below its parent,
a parent has at most one resource of its type, and the type names the sub-category. -/
structure FiledAlong (s : Surroundings) (rows : List Resource) (r : Resource) (t : ResourceType)
    (sub : SubCategoryId) : Prop where
  first : rows.find? (·.id = r.id) = some r
  not_circular : ¬IsCircular rows r
  below : ∃ p, r.parentId = some p ∧
    (NodeId.resource p ∈ (s.build rows).nodes.map Node.id ∨ NodeId.resource p ∈ s.rendered)
  type : s.catalog.type? r.typeId = some t
  singleton : t.singleton = true
  subCategory : t.subCategoryId = some sub

section Rows

variable {r : Resource} {t : ResourceType} {sub : SubCategoryId}

theorem filedAlong_iff : s.FiledAlong rows r t sub ↔ r ∈ placedRows rows ∧
    (∃ p, s.anchorAmong rows r = some p) ∧ s.catalog.type? r.typeId = some t ∧
      t.singleton = true ∧ t.subCategoryId = some sub := by
  constructor
  · intro h
    have hplaced := mem_placedRows_iff.mpr ⟨h.first, h.not_circular⟩
    obtain ⟨p, hp⟩ := h.below
    exact ⟨hplaced, ⟨p, (anchorAmong_of_mem_placedRows hplaced).mpr hp⟩, h.type, h.singleton,
      h.subCategory⟩
  · rintro ⟨hplaced, ⟨p, hp⟩, htype, hsingleton, hsub⟩
    obtain ⟨hfirst, hfree⟩ := mem_placedRows_iff.mp hplaced
    exact ⟨hfirst, hfree, ⟨p, (anchorAmong_of_mem_placedRows hplaced).mp hp⟩, htype, hsingleton,
      hsub⟩

/-- The row gives the end of the walk to remark and nothing else. -/
theorem FiledAlong.remark?_eq (h : s.FiledAlong rows r t sub) :
    s.remark? r (s.anchorAmong rows r) = endingRemark? t.id (s.catalog.chain sub).ending := by
  obtain ⟨-, ⟨p, hp⟩, htype, hsingleton, hsub⟩ := filedAlong_iff.mp h
  rw [hp]
  cases hending : (s.catalog.chain sub).ending <;>
    simp [remark?, endingRemark?, htype, hsingleton, hsub, hending]

theorem FiledAlong.foldersBelow_eq (h : s.FiledAlong rows r t sub) (p : ResourceId) :
    s.foldersBelow (firstRows rows) p r =
      categoryNodes p (NodeId.resource p) (s.catalog.chain sub).members.reverse := by
  simp [foldersBelow, h.type, h.singleton, h.subCategory]

end Rows

section Remarks

variable {typeId : TypeId} {ending : Catalog.ChainEnd} {d : Diagnostic}

theorem endingRemark?_injective {typeId' : TypeId} {ending' : Catalog.ChainEnd}
    (h : endingRemark? typeId ending = some d) (h' : endingRemark? typeId' ending' = some d) :
    typeId = typeId' ∧ ending = ending' := by
  cases ending <;> cases ending' <;> grind [endingRemark?]

/-- Remarks on the end of a walk are given by rows filed along one. -/
theorem filedAlong_of_remark? {r : Resource} (hd : endingRemark? typeId ending = some d)
    (hr : r ∈ placedRows rows) (h : s.remark? r (s.anchorAmong rows r) = some d) :
    ∃ t sub, s.FiledAlong rows r t sub ∧ t.id = typeId ∧ (s.catalog.chain sub).ending = ending := by
  cases hanchor : s.anchorAmong rows r with
  | none =>
    rw [hanchor] at h
    obtain ⟨p, -, rfl⟩ := Option.map_eq_some_iff.mp h
    cases ending <;> simp [endingRemark?] at hd
  | some p =>
    cases ht : s.catalog.type? r.typeId with
    | none =>
      obtain rfl : .unknownResourceType r.id r.typeId = d := by simpa [remark?, hanchor, ht] using h
      cases ending <;> simp [endingRemark?] at hd
    | some t =>
      cases hsingleton : t.singleton with
      | false => simp [remark?, hanchor, ht, hsingleton] at h
      | true =>
        cases hsub : t.subCategoryId with
        | none => simp [remark?, hanchor, ht, hsingleton, hsub] at h
        | some sub =>
          have hfiled := filedAlong_iff.mpr ⟨hr, ⟨p, hanchor⟩, ht, hsingleton, hsub⟩
          exact ⟨t, sub, hfiled, endingRemark?_injective (hfiled.remark?_eq.symm.trans h) hd⟩

/-- What is remarked before any row is placed is on rows that are left out. -/
theorem notMem_beginning (h : endingRemark? typeId ending = some d) :
    d ∉ (beginning rows).diagnostics := by
  intro hmem
  have homission := isOmission_of_mem_beginning hmem
  cases ending with
  | top => cases h
  | repeated id =>
    obtain rfl : .subCategoryCycle typeId id = d := Option.some.inj h
    cases homission
  | unknown id =>
    obtain rfl : .unknownSubCategory typeId id = d := Option.some.inj h
    cases homission

theorem endingRemark?_mem_iff (h : endingRemark? typeId ending = some d) :
    d ∈ (s.build rows).diagnostics ↔ ∃ r t sub, s.FiledAlong rows r t sub ∧ t.id = typeId ∧
      (s.catalog.chain sub).ending = ending := by
  show d ∈ (s.placing rows (placedRows rows)).diagnostics ↔ _
  rw [mem_diagnostics_placing (List.append_nil _).symm]
  constructor
  · rintro (hmem | ⟨r, hr, hremark⟩)
    · exact absurd hmem (notMem_beginning h)
    · exact ⟨r, filedAlong_of_remark? h hr hremark⟩
  · rintro ⟨r, t, sub, hfiled, rfl, rfl⟩
    exact .inr ⟨r, (filedAlong_iff.mp hfiled).1, hfiled.remark?_eq.trans h⟩

theorem count_noted_le {remarks : List Diagnostic} (h : remarks.count d ≤ 1)
    (new : Option Diagnostic) : (noted remarks new).count d ≤ 1 := by
  cases new with
  | none => exact h
  | some e =>
    by_cases he : e ∈ remarks
    · simpa [noted, he] using h
    · by_cases hde : d = e
      · subst hde
        simp [noted, he, List.count_eq_zero.mpr he]
      · simpa [noted, he, Ne.symm hde] using h

theorem count_endingRemark?_le (h : endingRemark? typeId ending = some d) (placed : List Resource) :
    (s.placing rows placed).diagnostics.count d ≤ 1 := by
  induction placed using List.reverseRecOn with
  | nil =>
    have hnone : (beginning rows).diagnostics.count d = 0 :=
      List.count_eq_zero.mpr (notMem_beginning h)
    exact hnone.le.trans (Nat.zero_le 1)
  | append_singleton placed r ih =>
    rw [placing_append_singleton, diagnostics_place]
    exact count_noted_le ih _

end Remarks

/-- What a build remarks on the ends of the walks, and that it remarks each of them once. -/
structure RemarksEnds (s : Surroundings) (rows : List Resource) (b : Build) : Prop where
  cycle_iff : ∀ typeId id, .subCategoryCycle typeId id ∈ b.diagnostics ↔
    ∃ r t sub, s.FiledAlong rows r t sub ∧ t.id = typeId ∧
      (s.catalog.chain sub).ending = .repeated id
  unknown_iff : ∀ typeId id, .unknownSubCategory typeId id ∈ b.diagnostics ↔
    ∃ r t sub, s.FiledAlong rows r t sub ∧ t.id = typeId ∧
      (s.catalog.chain sub).ending = .unknown id
  cycle_once : ∀ typeId id, b.diagnostics.count (.subCategoryCycle typeId id) ≤ 1
  unknown_once : ∀ typeId id, b.diagnostics.count (.unknownSubCategory typeId id) ≤ 1
  /-- Placing the row remarks the end of its walk, unless that was remarked, and nothing else. -/
  step : ∀ before r after, placedRows rows = before ++ r :: after →
    ∀ t sub, s.FiledAlong rows r t sub → (s.placing rows (before ++ [r])).diagnostics =
      noted (s.placing rows before).diagnostics
        (endingRemark? t.id (s.catalog.chain sub).ending)

theorem remarksEnds_build (s : Surroundings) (rows : List Resource) :
    s.RemarksEnds rows (s.build rows) where
  cycle_iff _ _ := endingRemark?_mem_iff rfl
  unknown_iff _ _ := endingRemark?_mem_iff rfl
  cycle_once typeId id := by
    have hremark : endingRemark? typeId (.repeated id) = some (.subCategoryCycle typeId id) := rfl
    exact count_endingRemark?_le hremark (placedRows rows)
  unknown_once typeId id := by
    have hremark : endingRemark? typeId (.unknown id) = some (.unknownSubCategory typeId id) := rfl
    exact count_endingRemark?_le hremark (placedRows rows)
  step before r after hsplit t sub hfiled := by
    rw [placing_append_singleton, diagnostics_place, s.anchor?_placing hsplit, hfiled.remark?_eq]

theorem subCategoryPath_eq (catalog : Catalog) {t : ResourceType} {sub : SubCategoryId}
    (h : t.subCategoryId = some sub) :
    subCategoryPath catalog (some t) = (catalog.chain sub).members.reverse := by
  rw [subCategoryPath, Option.bind_some, h]
  exact congrArg List.reverse (Catalog.climb_eq_members sub)

/-- Whatever the links between sub-categories are, the walk up from one comes to an end, and what it
has met is all that the links lead through before they come to a sub-category met already or to one
that the catalog does not know. A build remarks just these two endings, for the rows that it files
along a walk, and each of them once. The tree of a group files along the same sub-categories,
outermost first. -/
theorem sub_category_walks (s : Surroundings) :
    (∀ id, s.catalog.IsWalk id (s.catalog.chain id)) ∧
      (∀ rows, s.RemarksEnds rows (s.build rows)) ∧
      ∀ t sub, t.subCategoryId = some sub →
        subCategoryPath s.catalog (some t) = (s.catalog.chain sub).members.reverse ∧
          ∀ rows r p, s.FiledAlong rows r t sub → s.foldersBelow (firstRows rows) p r =
            categoryNodes p (NodeId.resource p) (subCategoryPath s.catalog (some t)) := by
  refine ⟨Catalog.isWalk_chain, s.remarksEnds_build, fun t sub hsub => ?_⟩
  have hpath := subCategoryPath_eq s.catalog hsub
  refine ⟨hpath, fun rows r p hfiled => ?_⟩
  rw [hpath]
  exact hfiled.foldersBelow_eq p

namespace Tangled

def subCategory (id : Int32) (parent : Option Int32) : SubCategory :=
  ⟨⟨id⟩, "Pools", parent.map SubCategoryId.mk⟩

def resourceType (id sub : Int32) : ResourceType :=
  ⟨⟨id⟩, "Datasource", "JBossAS", .service, none, true, some ⟨sub⟩, []⟩

/-- The links lead from 1 onto a circle of 2 and 3, and from 4 to nothing. -/
def catalog : Catalog :=
  { types := [resourceType 5 1, resourceType 6 4]
    subCategories := [subCategory 1 (some 2), subCategory 2 (some 3), subCategory 3 (some 2),
      subCategory 4 (some 9)] }

def row (id : Int32) (parent : Option Int32) (typeId : Int32) : Resource :=
  ⟨⟨id⟩, "main", none, parent.map ResourceId.mk, ⟨typeId⟩, .up, none⟩

def batch : List Resource := [row 1 none 5, row 2 (some 1) 5, row 3 (some 1) 5, row 4 (some 1) 6]

theorem filedAlong_row (id typeId sub : Int32) (hrow : row id (some 1) typeId ∈ placedRows batch)
    (htype : catalog.type? ⟨typeId⟩ = some (resourceType typeId sub)) :
    (ofCatalog catalog).FiledAlong batch (row id (some 1) typeId) (resourceType typeId sub) ⟨sub⟩ :=
  filedAlong_iff.mpr ⟨hrow, ⟨⟨1⟩, by decide_cbv⟩, htype, rfl, rfl⟩

theorem sub_category_walks_tangled :
    (ofCatalog catalog).FiledAlong batch (row 2 (some 1) 5) (resourceType 5 1) ⟨1⟩ ∧
      (ofCatalog catalog).foldersBelow (firstRows batch) ⟨1⟩ (row 2 (some 1) 5) =
        categoryNodes ⟨1⟩ (NodeId.resource ⟨1⟩) (subCategoryPath catalog (resourceType 5 1)) ∧
      subCategoryPath catalog (resourceType 5 1) =
        [subCategory 3 (some 2), subCategory 2 (some 3), subCategory 1 (some 2)] ∧
      catalog.above? ⟨1⟩ 3 = some ⟨2⟩ ∧
      ((ofCatalog catalog).build batch).diagnostics.count (.subCategoryCycle ⟨5⟩ ⟨2⟩) = 1 ∧
      ((ofCatalog catalog).build batch).diagnostics.count (.unknownSubCategory ⟨6⟩ ⟨9⟩) = 1 := by
  obtain ⟨hwalk, hremarks, hpath⟩ := sub_category_walks (ofCatalog catalog)
  have hcircle : catalog.chain ⟨1⟩ =
      ⟨[subCategory 1 (some 2), subCategory 2 (some 3), subCategory 3 (some 2)],
        .repeated ⟨2⟩⟩ := by
    decide_cbv
  have hlost : catalog.chain ⟨4⟩ = ⟨[subCategory 4 (some 9)], .unknown ⟨9⟩⟩ := by decide_cbv
  have hfirst := filedAlong_row 2 5 1 (by decide_cbv) rfl
  have hlast := filedAlong_row 4 6 4 (by decide_cbv) rfl
  have hcycle := ((hremarks batch).cycle_iff ⟨5⟩ ⟨2⟩).mpr
    ⟨_, _, _, hfirst, rfl, congrArg Catalog.Chain.ending hcircle⟩
  have hunknown := ((hremarks batch).unknown_iff ⟨6⟩ ⟨9⟩).mpr
    ⟨_, _, _, hlast, rfl, congrArg Catalog.Chain.ending hlost⟩
  obtain ⟨hreverse, hfolders⟩ := hpath (resourceType 5 1) ⟨1⟩ rfl
  refine ⟨hfirst, hfolders batch _ ⟨1⟩ hfirst, ?_, ?_, ?_, ?_⟩
  · exact hreverse.trans (congrArg (fun chain : Catalog.Chain => chain.members.reverse) hcircle)
  · have hended := (((hwalk ⟨1⟩).repeated_iff ⟨2⟩).mp (congrArg Catalog.Chain.ending hcircle)).1
    rwa [show (ofCatalog catalog).catalog.chain ⟨1⟩ = _ from hcircle] at hended
  · exact le_antisymm ((hremarks batch).cycle_once _ _) (List.count_pos_iff.mpr hcycle)
  · exact le_antisymm ((hremarks batch).unknown_once _ _) (List.count_pos_iff.mpr hunknown)

end Tangled

end Tree.Surroundings

end FleetConsole
