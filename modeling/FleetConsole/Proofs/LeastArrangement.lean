import FleetConsole.Proofs.ParentCircles

/-! The arrangement that puts parents first is the least of all that do: the walk from a position up
along the parents either ends, and then the position is arranged as early as its parents allow, or
it comes onto a circle, and then the position is left over. -/
namespace FleetConsole.Tree.ParentFirst

section Walks

variable {α : Type} {next : α → Option α}

/-- Where `n` steps along `next` lead, if so many can be taken. -/
def walk? (next : α → Option α) : Nat → α → Option α
  | 0, a => some a
  | n + 1, a => (next a).bind (walk? next n)

/-- A walk that never has to stop. -/
def IsEndless (next : α → Option α) (a : α) : Prop := ∀ n, (walk? next n a).isSome

/-- One step of a walk. -/
abbrev Steps (next : α → Option α) (a b : α) : Prop := next a = some b

theorem walk?_succ_of_steps {a b : α} (h : Steps next a b) (n : Nat) :
    walk? next (n + 1) a = walk? next n b := by
  rw [walk?, h, Option.bind_some]

theorem reflTransGen_of_walk? {n : Nat} {a b : α} (h : walk? next n a = some b) :
    Relation.ReflTransGen (Steps next) a b := by
  induction n generalizing a with
  | zero =>
    obtain rfl : a = b := Option.some.inj h
    exact .refl
  | succ n ih =>
    obtain ⟨c, hac, hcb⟩ := Option.bind_eq_some_iff.mp h
    exact (ih hcb).head hac

theorem exists_walk?_of_reflTransGen {a b : α} (h : Relation.ReflTransGen (Steps next) a b) :
    ∃ n, walk? next n a = some b := by
  induction h using Relation.ReflTransGen.head_induction_on with
  | refl => exact ⟨0, rfl⟩
  | head hstep _ ih =>
    obtain ⟨n, hn⟩ := ih
    exact ⟨n + 1, (walk?_succ_of_steps hstep n).trans hn⟩

theorem transGen_iff {a b : α} :
    Relation.TransGen (Steps next) a b ↔ ∃ n, 0 < n ∧ walk? next n a = some b := by
  rw [Relation.TransGen.head'_iff]
  constructor
  · rintro ⟨c, hac, hcb⟩
    obtain ⟨n, hn⟩ := exists_walk?_of_reflTransGen hcb
    exact ⟨n + 1, Nat.succ_pos n, (walk?_succ_of_steps hac n).trans hn⟩
  · rintro ⟨n, hpos, hn⟩
    obtain ⟨m, rfl⟩ := Nat.exists_eq_add_of_lt hpos
    rw [Nat.zero_add] at hn
    obtain ⟨c, hac, hcb⟩ := Option.bind_eq_some_iff.mp hn
    exact ⟨c, hac, reflTransGen_of_walk? hcb⟩

/-- A walk onto a circle never stops: from wherever it is, the circle is still ahead. -/
theorem isEndless_of_leadsToCircle {a : α} (h : LeadsToCircle (Steps next) a) :
    IsEndless next a := by
  obtain ⟨b, hab, hcircle⟩ := h
  intro n
  induction n generalizing a with
  | zero => rfl
  | succ n ih =>
    have hfirst : ∃ c, Steps next a c ∧ Relation.ReflTransGen (Steps next) c b := by
      rcases Relation.ReflTransGen.cases_head hab with rfl | hstep
      · exact Relation.TransGen.head'_iff.mp hcircle
      · exact hstep
    obtain ⟨c, hac, hcb⟩ := hfirst
    rw [walk?_succ_of_steps hac]
    exact ih hcb

end Walks

section Arrange

variable {parentOf : Nat → Option Nat}

/-- The positions with a property, each once and after its parent. -/
structure Arranges (parentOf : Nat → Option Nat) (remains : Nat → Prop) (l : List Nat) : Prop where
  nodup : l.Nodup
  mem_iff : ∀ i, i ∈ l ↔ remains i
  parent_before : ∀ before i after, l = before ++ i :: after →
    ∀ p, parentOf i = some p → p ∈ before

/-- What is left over stays in its order. -/
theorem cyclic_sublist (waiting : List Nat) :
    (arrange parentOf waiting).cyclic.Sublist waiting := by
  induction waiting using arrange.induct parentOf with
  | case1 waiting h =>
    rw [arrange_of_none h]
  | case2 waiting i h ih =>
    rw [arrange_of_some h]
    exact ih.trans List.erase_sublist

/-- No other arrangement of the same positions comes before this one: where the two first differ,
the other one puts a position that could go, and this one the least such. -/
theorem ordered_le {waiting l : List Nat} (hsorted : waiting.Pairwise (· < ·))
    (hperm : (l ++ (arrange parentOf waiting).cyclic).Perm waiting)
    (hbefore : ∀ before i after, l = before ++ i :: after →
      ∀ p, parentOf i = some p → p ∈ waiting → p ∈ before) :
    (arrange parentOf waiting).ordered ≤ l := by
  induction waiting using arrange.induct parentOf generalizing l with
  | case1 waiting h =>
    rw [arrange_of_none h]
    exact le_of_not_gt (List.not_lt_nil l)
  | case2 waiting i h ih =>
    rw [arrange_of_some h] at hperm ⊢
    have hi := List.mem_of_find?_eq_some h
    have hnodup : waiting.Nodup := hsorted.imp Nat.ne_of_lt
    cases l with
    | nil =>
      have hwaits := (cyclic_sublist _).subset (hperm.mem_iff.mpr hi)
      exact absurd rfl (hnodup.mem_erase_iff.mp hwaits).1
    | cons k l =>
      have hk : k ∈ waiting := hperm.subset (by simp)
      have hready : isReady parentOf waiting k = true := by
        simp only [isReady, Option.all_eq_true]
        intro p hp
        by_contra hwait
        exact absurd (hbefore [] k l rfl p hp (by simpa using hwait)) List.not_mem_nil
      rcases (le_of_isReady hsorted h hk hready).lt_or_eq with hlt | rfl
      · have hless : i :: (arrange parentOf (waiting.erase i)).ordered < k :: l := .rel hlt
        exact hless.le
      · refine List.cons_le_cons i (ih (hsorted.sublist List.erase_sublist) ?_ ?_)
        · exact (hperm.trans (List.perm_cons_erase hi)).cons_inv
        · intro before j after hsplit p hp hwait
          obtain ⟨hne, hmem⟩ := hnodup.mem_erase_iff.mp hwait
          have hcons : i :: l = (i :: before) ++ j :: after := congrArg (i :: ·) hsplit
          exact (List.mem_cons.mp (hbefore _ j after hcons p hp hmem)).resolve_left hne

end Arrange

section Links

variable {K : Type} [DecidableEq K]

theorem notMem_behind_lastIndex {keys : List K} {key : K} {j k : Nat}
    (h : lastIndex keys key = some j) (hk : j < k) : keys[k]? ≠ some key := by
  obtain ⟨m, hm, rfl⟩ := Option.map_eq_some_iff.mp h
  obtain ⟨hlt, -, hearlier⟩ := List.findIdx?_eq_some_iff_getElem.mp hm
  rw [List.length_reverse] at hlt
  intro hkey
  obtain ⟨hlength, hget⟩ := List.getElem?_eq_some_iff.mp hkey
  have hbehind := hearlier (keys.length - 1 - k) (by omega)
  rw [List.getElem_reverse] at hbehind
  have hindex : keys.length - 1 - (keys.length - 1 - k) = k := by omega
  simp [hindex, hget] at hbehind

theorem lastIndex_eq_some_iff {keys : List K} {key : K} {j : Nat} :
    lastIndex keys key = some j ↔
      keys[j]? = some key ∧ ∀ k, j < k → keys[k]? ≠ some key := by
  constructor
  · intro h
    exact ⟨getElem?_of_lastIndex h, fun k hk => notMem_behind_lastIndex h hk⟩
  · rintro ⟨hkey, hlast⟩
    cases h : lastIndex keys key with
    | none => exact absurd (List.mem_of_getElem? hkey) (lastIndex_eq_none_iff.mp h)
    | some i =>
      rcases Nat.lt_trichotomy i j with hlt | rfl | hgt
      · exact absurd hkey (notMem_behind_lastIndex h hlt)
      · rfl
      · exact absurd (getElem?_of_lastIndex h) (hlast i hgt)

theorem parentAt_eq_some_iff {links : List (K × Option K)} {i j : Nat} :
    parentAt links i = some j ↔ ∃ own key, links[i]? = some (own, some key) ∧
      (links.map Prod.fst)[j]? = some key ∧
      ∀ k, j < k → (links.map Prod.fst)[k]? ≠ some key := by
  simp only [parentAt, Option.bind_eq_some_iff, lastIndex_eq_some_iff, Prod.exists]
  constructor
  · rintro ⟨own, _, hlink, key, rfl, hkey⟩
    exact ⟨own, key, hlink, hkey⟩
  · rintro ⟨own, key, hlink, hkey⟩
    exact ⟨own, some key, hlink, key, rfl, hkey⟩

theorem lt_of_parentAt {links : List (K × Option K)} {i j : Nat} (h : parentAt links i = some j) :
    j < links.length := by
  obtain ⟨_, _, -, hkey, -⟩ := parentAt_eq_some_iff.mp h
  simpa using (List.getElem?_eq_some_iff.mp hkey).1

variable (links : List (K × Option K))

/-- A position from which the walk up along the parents ends. -/
def Grounded (i : Nat) : Prop := i < links.length ∧ ¬IsEndless (parentAt links) i

theorem ofLinks_perm :
    ((ofLinks links).ordered ++ (ofLinks links).cyclic).Perm (List.range links.length) := by
  rw [ofLinks_eq]
  exact arrange_perm _

theorem leadsToCircle_of_mem_cyclic {i : Nat} (h : i ∈ (ofLinks links).cyclic) :
    LeadsToCircle (Steps (parentAt links)) i := by
  refine leadsToCircle_of_forall_exists (fun j hj => ?_) h
  rw [ofLinks_eq] at hj ⊢
  obtain ⟨p, hp, hmem⟩ := parent_of_mem_cyclic _ hj
  exact ⟨p, hmem, hp⟩

theorem parent_mem_before_ofLinks {before after : List Nat} {i p : Nat}
    (h : (ofLinks links).ordered = before ++ i :: after) (hp : parentAt links i = some p) :
    p ∈ before := by
  rw [ofLinks_eq] at h
  exact parent_mem_before _ h hp (List.mem_range.mpr (lt_of_parentAt hp))

/-- Above a position that is arranged are only earlier ones, so the walk up from it ends. -/
theorem not_isEndless_of_mem_ordered {i : Nat} (h : i ∈ (ofLinks links).ordered) :
    ¬IsEndless (parentAt links) i := by
  have hbefore (before : List Nat) : ∀ after, (ofLinks links).ordered = before ++ after →
      ∀ i ∈ before, ¬IsEndless (parentAt links) i := by
    induction before using List.reverseRecOn with
    | nil => simp
    | append_singleton before i ih =>
      intro after hsplit j hj
      have hcons : (ofLinks links).ordered = before ++ i :: after := by simpa using hsplit
      rcases List.mem_append.mp hj with hearlier | hlast
      · exact ih _ hcons j hearlier
      · obtain rfl := List.mem_singleton.mp hlast
        intro hendless
        obtain ⟨p, hp⟩ : ∃ p, Steps (parentAt links) j p := by
          simpa [walk?, Option.isSome_iff_exists] using hendless 1
        refine ih _ hcons p (parent_mem_before_ofLinks links hcons hp) fun n => ?_
        rw [← walk?_succ_of_steps hp]
        exact hendless (n + 1)
  exact hbefore _ [] (List.append_nil _).symm i h

theorem lt_of_isEndless {i : Nat} (h : IsEndless (parentAt links) i) : i < links.length := by
  obtain ⟨p, hp⟩ : ∃ p, Steps (parentAt links) i p := by
    simpa [walk?, Option.isSome_iff_exists] using h 1
  obtain ⟨_, _, hlink, -⟩ := parentAt_eq_some_iff.mp hp
  exact (List.getElem?_eq_some_iff.mp hlink).1

theorem mem_ordered_or_cyclic {i : Nat} :
    i ∈ (ofLinks links).ordered ∨ i ∈ (ofLinks links).cyclic ↔ i < links.length := by
  rw [← List.mem_append, (ofLinks_perm links).mem_iff, List.mem_range]

theorem mem_cyclic_iff {i : Nat} :
    i ∈ (ofLinks links).cyclic ↔ IsEndless (parentAt links) i := by
  constructor
  · intro h
    exact isEndless_of_leadsToCircle (leadsToCircle_of_mem_cyclic links h)
  · intro h
    exact ((mem_ordered_or_cyclic links).mpr (lt_of_isEndless links h)).resolve_left
      fun hordered => not_isEndless_of_mem_ordered links hordered h

/-- The positions left over are those on a circle or below one. -/
theorem mem_cyclic_iff_leadsToCircle {i : Nat} :
    i ∈ (ofLinks links).cyclic ↔ LeadsToCircle (Steps (parentAt links)) i :=
  ⟨leadsToCircle_of_mem_cyclic links, fun h =>
    (mem_cyclic_iff links).mpr (isEndless_of_leadsToCircle h)⟩

theorem mem_ordered_iff {i : Nat} : i ∈ (ofLinks links).ordered ↔ Grounded links i := by
  constructor
  · intro h
    exact ⟨(mem_ordered_or_cyclic links).mp (.inl h), not_isEndless_of_mem_ordered links h⟩
  · rintro ⟨hlt, hends⟩
    exact ((mem_ordered_or_cyclic links).mpr hlt).resolve_right fun h =>
      hends ((mem_cyclic_iff links).mp h)

theorem arranges_ordered : Arranges (parentAt links) (Grounded links) (ofLinks links).ordered where
  nodup := ((ofLinks_perm links).nodup_iff.mpr List.nodup_range).of_append_left
  mem_iff _ := mem_ordered_iff links
  parent_before _ _ _ h _ hp := parent_mem_before_ofLinks links h hp

theorem ordered_le_of_arranges {l : List Nat} (h : Arranges (parentAt links) (Grounded links) l) :
    (ofLinks links).ordered ≤ l := by
  have hsame : l.Perm (ofLinks links).ordered :=
    (List.perm_ext_iff_of_nodup h.nodup (arranges_ordered links).nodup).mpr fun i =>
      (h.mem_iff i).trans (mem_ordered_iff links).symm
  have hall := (hsame.append_right _).trans (ofLinks_perm links)
  rw [ofLinks_eq] at hall ⊢
  exact ordered_le List.pairwise_lt_range hall fun before i after hsplit p hp _ =>
    h.parent_before before i after hsplit p hp

theorem hasCycle_iff :
    hasCycle links = true ↔ ∃ i, Relation.TransGen (Steps (parentAt links)) i i := by
  have hsome : hasCycle links = true ↔ ∃ i, i ∈ (ofLinks links).cyclic := by
    simp [hasCycle, List.eq_nil_iff_forall_not_mem]
  rw [hsome]
  constructor
  · rintro ⟨i, hi⟩
    obtain ⟨b, -, hcircle⟩ := leadsToCircle_of_mem_cyclic links hi
    exact ⟨b, hcircle⟩
  · rintro ⟨i, hcircle⟩
    exact ⟨i, (mem_cyclic_iff_leadsToCircle links).mpr ⟨i, .refl, hcircle⟩⟩

/-- Each position is arranged or left over, once. Left over, in their order, are the positions from
which the walk up along the parents never stops, as it comes onto a circle; the others stand in the
least of all orders in which each comes after its parent. -/
theorem arrangement_least :
    (∀ i j, parentAt links i = some j ↔ ∃ own key, links[i]? = some (own, some key) ∧
      (links.map Prod.fst)[j]? = some key ∧
      ∀ k, j < k → (links.map Prod.fst)[k]? ≠ some key) ∧
    ((ofLinks links).ordered ++ (ofLinks links).cyclic).Perm (List.range links.length) ∧
    (∀ i, i ∈ (ofLinks links).cyclic ↔ IsEndless (parentAt links) i) ∧
    (∀ i, i ∈ (ofLinks links).cyclic ↔ LeadsToCircle (Steps (parentAt links)) i) ∧
    (ofLinks links).cyclic.Pairwise (· < ·) ∧
    IsLeast {l | Arranges (parentAt links) (Grounded links) l} (ofLinks links).ordered ∧
    (hasCycle links = true ↔ ∃ i n, 0 < n ∧ walk? (parentAt links) n i = some i) := by
  refine ⟨fun i j => parentAt_eq_some_iff, ofLinks_perm links, fun i => mem_cyclic_iff links,
    fun i => mem_cyclic_iff_leadsToCircle links, ?_,
    ⟨arranges_ordered links, fun l => ordered_le_of_arranges links⟩, ?_⟩
  · rw [ofLinks_eq]
    exact List.pairwise_lt_range.sublist (cyclic_sublist _)
  · simp only [hasCycle_iff, transGen_iff]

/-- Of two links with one key the last is the parent. -/
example : ofLinks [(4, some 3), (3, some 1), (1, none), (5, some 6), (1, some 7), (6, some 6)] =
    ⟨[2, 4, 1, 0], [3, 5]⟩ := by
  cbv

end Links

end FleetConsole.Tree.ParentFirst
