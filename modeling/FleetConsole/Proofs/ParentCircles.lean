import FleetConsole.Proofs.BuildNodes

/-! The rows that a build leaves out are those from which the parents lead onto a circle. -/
namespace FleetConsole.Tree

section Circles

variable {α : Type} {above : α → α → Prop}

/-- Something from which `above` leads onto a circle. -/
def LeadsToCircle (above : α → α → Prop) (a : α) : Prop :=
  ∃ b, Relation.ReflTransGen above a b ∧ Relation.TransGen above b b

/-- A walk that never has to stop in finitely many places meets one of them again. -/
theorem leadsToCircle_of_forall_exists {places : List α}
    (hstep : ∀ a ∈ places, ∃ b ∈ places, above a b) {a : α} (ha : a ∈ places) :
    LeadsToCircle above a := by
  by_contra hfree
  let Reached := { b // b ∈ places ∧ Relation.ReflTransGen above a b }
  let higher : Reached → Reached → Prop := fun c b => Relation.TransGen above b.1 c.1
  have hfinite : Finite Reached :=
    (places.finite_toSet.subset fun b (hb : b ∈ places ∧ _) => hb.1).to_subtype
  have htrans : IsTrans Reached higher := ⟨fun _ _ _ hcb hdc => hdc.trans hcb⟩
  have hirrefl : Std.Irrefl higher := ⟨fun b hb => hfree ⟨b.1, b.2.2, hb⟩⟩
  have hwf : WellFounded higher := Finite.wellFounded_of_trans_of_irrefl higher
  obtain ⟨b, -, htop⟩ := hwf.has_min Set.univ ⟨⟨a, ha, .refl⟩, trivial⟩
  obtain ⟨c, hc, hbc⟩ := hstep b.1 b.2.1
  exact htop ⟨c, hc, b.2.2.tail hbc⟩ trivial (.single hbc)

theorem LeadsToCircle.mono {above' : α → α → Prop} {a : α} (h : LeadsToCircle above a)
    (hsub : ∀ a b, above a b → above' a b) : LeadsToCircle above' a := by
  obtain ⟨b, hab, hcircle⟩ := h
  exact ⟨b, Relation.ReflTransGen.mono hsub _ _ hab, Relation.TransGen.mono hsub _ _ hcircle⟩

end Circles

section Rows

variable {rows : List Resource}

theorem find?_splitRepeats {seen : List ResourceId} {p : ResourceId} (hp : p ∉ seen) :
    (splitRepeats seen rows).1.find? (·.id = p) = rows.find? (·.id = p) := by
  induction rows generalizing seen with
  | nil => rfl
  | cons r rest ih =>
    by_cases hr : r.id ∈ seen
    · have hne : r.id ≠ p := fun h => hp (h ▸ hr)
      simpa [splitRepeats, hr, hne] using ih hp
    · have hsplit : (splitRepeats seen (r :: rest)).1 =
          r :: (splitRepeats (r.id :: seen) rest).1 := by simp [splitRepeats, hr]
      rw [hsplit]
      by_cases hid : r.id = p
      · simp [hid]
      · have hnew : p ∉ r.id :: seen := by simp [hp, Ne.symm hid]
        simpa [hid] using ih hnew

theorem find?_firstRows (p : ResourceId) :
    (firstRows rows).find? (·.id = p) = rows.find? (·.id = p) :=
  find?_splitRepeats List.not_mem_nil

/-- The first rows are those that a look-up by id finds. -/
theorem mem_firstRows_iff {r : Resource} :
    r ∈ firstRows rows ↔ rows.find? (·.id = r.id) = some r := by
  rw [← find?_firstRows]
  exact ⟨find?_key_of_mem (nodup_ids_firstRows rows), List.mem_of_find?_eq_some⟩

/-- The row of the parent: the first with the id that `r` names. -/
def IsParentRow (rows : List Resource) (r q : Resource) : Prop :=
  ∃ p, r.parentId = some p ∧ rows.find? (·.id = p) = some q

theorem isParentRow_iff {r q : Resource} :
    IsParentRow rows r q ↔ q ∈ firstRows rows ∧ r.parentId = some q.id := by
  constructor
  · rintro ⟨p, hp, hfind⟩
    obtain rfl : q.id = p := by simpa using List.find?_some hfind
    exact ⟨mem_firstRows_iff.mpr hfind, hp⟩
  · rintro ⟨hq, hp⟩
    exact ⟨q.id, hp, mem_firstRows_iff.mp hq⟩

/-- A row that lies on a circle of parents or below one. -/
abbrev IsCircular (rows : List Resource) : Resource → Prop := LeadsToCircle (IsParentRow rows)

theorem mem_firstRows_of_mem_circularRows {r : Resource} (h : r ∈ circularRows rows) :
    r ∈ firstRows rows :=
  (placedRows_append_perm rows).subset (List.mem_append_right _ h)

theorem isCircular_of_mem_circularRows {r : Resource} (h : r ∈ circularRows rows) :
    IsCircular rows r := by
  refine leadsToCircle_of_forall_exists (fun q (hq : q ∈ circularRows rows) => ?_) h
  obtain ⟨p, hp, hmem⟩ := parent_of_mem_circularRows hq
  obtain ⟨above, habove, rfl⟩ := List.mem_map.mp hmem
  exact ⟨above, habove, isParentRow_iff.mpr ⟨mem_firstRows_of_mem_circularRows habove, hp⟩⟩

/-- Everything above a row that is placed is placed before it. -/
theorem mem_before_of_transGen {before after : List Resource} {r q : Resource}
    (h : placedRows rows = before ++ r :: after)
    (hq : Relation.TransGen (IsParentRow rows) r q) : q ∈ before := by
  have hparent {front back : List Resource} {r q : Resource}
      (h : placedRows rows = front ++ r :: back) (hrq : IsParentRow rows r q) : q ∈ front := by
    obtain ⟨hmem, hp⟩ := isParentRow_iff.mp hrq
    obtain ⟨q', hq', hid⟩ :=
      List.mem_map.mp (parent_mem_before_placedRows h hp (List.mem_map_of_mem hmem))
    have hplaced : q' ∈ placedRows rows := by simp [h, hq']
    have hsame : q' = q := List.inj_on_of_nodup_map (nodup_ids_firstRows rows)
      (mem_firstRows_of_mem_placedRows hplaced) hmem hid
    exact hsame ▸ hq'
  induction hq with
  | single hrq => exact hparent h hrq
  | @tail m q _ hstep ih =>
    obtain ⟨front, back, rfl⟩ := List.append_of_mem ih
    have hsplit : placedRows rows = front ++ m :: (back ++ r :: after) := by simpa using h
    exact List.mem_append_left _ (hparent hsplit hstep)

theorem not_isCircular_of_mem_placedRows {r : Resource} (h : r ∈ placedRows rows) :
    ¬IsCircular rows r := by
  rintro ⟨q, hreach, hcircle⟩
  have hq : q ∈ placedRows rows := by
    obtain ⟨before, after, hsplit⟩ := List.append_of_mem h
    rcases Relation.reflTransGen_iff_eq_or_transGen.mp hreach with rfl | htrans
    · exact h
    · rw [hsplit]
      exact List.mem_append_left _ (mem_before_of_transGen hsplit htrans)
  obtain ⟨before, after, hsplit⟩ := List.append_of_mem hq
  have hnodup := (nodup_ids_placedRows rows).of_map
  rw [hsplit] at hnodup
  exact (List.nodup_append.mp hnodup).2.2 q (mem_before_of_transGen hsplit hcircle) q
    List.mem_cons_self rfl

/-- The rows that get a node are the first ones of their ids, unless the parents lead onto a
circle. -/
theorem mem_placedRows_iff {r : Resource} :
    r ∈ placedRows rows ↔ rows.find? (·.id = r.id) = some r ∧ ¬IsCircular rows r := by
  rw [← mem_firstRows_iff]
  constructor
  · intro h
    exact ⟨mem_firstRows_of_mem_placedRows h, not_isCircular_of_mem_placedRows h⟩
  · rintro ⟨hfirst, hfree⟩
    rcases List.mem_append.mp ((placedRows_append_perm rows).symm.subset hfirst) with hmem | hmem
    · exact hmem
    · exact absurd (isCircular_of_mem_circularRows hmem) hfree

theorem mem_circularRows_iff {r : Resource} :
    r ∈ circularRows rows ↔ rows.find? (·.id = r.id) = some r ∧ IsCircular rows r := by
  constructor
  · intro h
    exact ⟨mem_firstRows_iff.mp (mem_firstRows_of_mem_circularRows h),
      isCircular_of_mem_circularRows h⟩
  · rintro ⟨hfirst, hcircular⟩
    have hrow := mem_firstRows_iff.mpr hfirst
    rcases List.mem_append.mp ((placedRows_append_perm rows).symm.subset hrow) with hmem | hmem
    · exact absurd hcircular (not_isCircular_of_mem_placedRows hmem)
    · exact hmem

end Rows

end FleetConsole.Tree
