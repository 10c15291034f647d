import Mathlib
import FleetConsole.Catalog

/-! The walk from a sub-category up along the parents. It meets only what the catalog has, and where
no link leads back it goes all the way up, so what it meets after a sub-category depends on this
one only. -/
namespace FleetConsole.Catalog

variable {c : Catalog}

section Steps

variable {unmet : List SubCategory} {id : SubCategoryId}

theorem chainAmong_of_none (h : unmet.find? (·.id = id) = none) : c.chainAmong unmet id =
    ⟨[], if (c.subCategory? id).isSome then .repeated id else .unknown id⟩ := by
  rw [chainAmong]
  split
  · rfl
  · rename_i t ht
    exact absurd (h.symm.trans ht) (by simp)

theorem chainAmong_of_some {s : SubCategory} (h : unmet.find? (·.id = id) = some s) :
    c.chainAmong unmet id =
      match s.parentId with
      | none => ⟨[s], .top⟩
      | some p => ⟨s :: (c.chainAmong (without unmet id) p).members,
          (c.chainAmong (without unmet id) p).ending⟩ := by
  rw [chainAmong]
  split
  · rename_i hnone
    exact absurd (h.symm.trans hnone) (by simp)
  · rename_i t ht
    obtain rfl : s = t := Option.some.inj (h.symm.trans ht)
    rfl

theorem members_of_none (h : unmet.find? (·.id = id) = none) :
    (c.chainAmong unmet id).members = [] := by
  rw [chainAmong_of_none h]

theorem members_of_some {s : SubCategory} (h : unmet.find? (·.id = id) = some s) :
    (c.chainAmong unmet id).members =
      s :: (s.parentId.map fun p => (c.chainAmong (without unmet id) p).members).getD [] := by
  rw [chainAmong_of_some h]
  cases s.parentId <;> rfl

end Steps

theorem find?_without (unmet : List SubCategory) (id a : SubCategoryId) :
    (without unmet id).find? (·.id = a) = if a = id then none else unmet.find? (·.id = a) := by
  rw [without, List.find?_filter]
  by_cases ha : a = id
  · rw [if_pos ha, List.find?_eq_none]
    intro s _
    simp [ha]
  · rw [if_neg ha]
    congr 1
    funext s
    by_cases hs : s.id = a <;> simp [hs, ha]

/-- What is met is what its id stands for. -/
theorem find?_of_mem_chainAmong {unmet : List SubCategory} {id : SubCategoryId} {s : SubCategory}
    (h : s ∈ (c.chainAmong unmet id).members) : unmet.find? (·.id = s.id) = some s := by
  have hself {unmet : List SubCategory} {id : SubCategoryId} {s : SubCategory}
      (hs : unmet.find? (·.id = id) = some s) : unmet.find? (·.id = s.id) = some s := by
    obtain rfl : s.id = id := by simpa using List.find?_some hs
    exact hs
  induction unmet, id using Catalog.chainAmong.induct c with
  | case1 unmet id hnone => simp [members_of_none hnone] at h
  | case2 unmet id first hfirst hparent =>
    rw [members_of_some hfirst, hparent] at h
    obtain rfl : s = first := by simpa using h
    exact hself hfirst
  | case3 unmet id first hfirst parent hparent ih =>
    rw [members_of_some hfirst, hparent] at h
    rcases List.mem_cons.mp h with rfl | hmem
    · exact hself hfirst
    · have hfound := ih hmem
      rw [find?_without] at hfound
      split at hfound
      · cases hfound
      · exact hfound

theorem subCategory?_of_mem_chain {id : SubCategoryId} {s : SubCategory}
    (h : s ∈ (c.chain id).members) : c.subCategory? s.id = some s :=
  find?_of_mem_chainAmong h

theorem mem_of_mem_chainAmong {unmet : List SubCategory} {id : SubCategoryId} {s : SubCategory}
    (h : s ∈ (c.chainAmong unmet id).members) : s ∈ unmet :=
  List.mem_of_find?_eq_some (find?_of_mem_chainAmong h)

/-- A sub-category names another as its parent. -/
def Names (c : Catalog) (a b : SubCategoryId) : Prop :=
  ∃ s, c.subCategory? a = some s ∧ s.parentId = some b

/-- No sub-category is reached again on the way up from it. -/
def Acyclic (c : Catalog) : Prop := ∀ id, ¬Relation.TransGen c.Names id id

/-- Sub-categories, each followed by its parent if the catalog knows that. -/
def Climbs (c : Catalog) : List SubCategory → Prop
  | [] => True
  | s :: rest =>
    c.subCategory? s.id = some s ∧ s.parentId.bind c.subCategory? = rest.head? ∧ c.Climbs rest

/-- A walk that still has everything before it that can be reached goes all the way up. -/
theorem climbs_chainAmong (h : c.Acyclic) {unmet : List SubCategory} {id : SubCategoryId}
    (hunmet : ∀ above, Relation.ReflTransGen c.Names id above →
      unmet.find? (·.id = above) = c.subCategory? above) :
    c.Climbs (c.chainAmong unmet id).members ∧
      (c.chainAmong unmet id).members.head? = c.subCategory? id := by
  induction unmet, id using Catalog.chainAmong.induct c with
  | case1 unmet id hnone =>
    rw [members_of_none hnone, ← hunmet id .refl, hnone]
    exact ⟨trivial, rfl⟩
  | case2 unmet id s hsome hparent =>
    have hid := (hunmet id .refl).symm.trans hsome
    rw [members_of_some hsome, hparent, hid]
    refine ⟨⟨(id_of_subCategory? hid).symm ▸ hid, ?_, trivial⟩, rfl⟩
    rw [hparent]
    rfl
  | case3 unmet id s hsome parent hparent ih =>
    have hid := (hunmet id .refl).symm.trans hsome
    have hnames : c.Names id parent := ⟨s, hid, hparent⟩
    obtain ⟨hclimbs, hhead⟩ := ih fun above habove => by
      have hne : above ≠ id := by
        rintro rfl
        exact h above (Relation.TransGen.head' hnames habove)
      rw [find?_without, if_neg hne, hunmet above (habove.head hnames)]
    rw [members_of_some hsome, hparent, hid]
    refine ⟨⟨(id_of_subCategory? hid).symm ▸ hid, ?_, hclimbs⟩, rfl⟩
    rw [hparent]
    exact hhead.symm

theorem climbs_chain (h : c.Acyclic) (id : SubCategoryId) : c.Climbs (c.chain id).members :=
  (climbs_chainAmong h fun _ _ => rfl).1

end FleetConsole.Catalog
