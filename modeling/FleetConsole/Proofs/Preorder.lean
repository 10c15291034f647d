import Mathlib
import FleetConsole.Proofs.Containment
import FleetConsole.Proofs.ParentFirst

/-! A tree laid out as a list. Several nodes may go by one id, so nodes are told apart by their
positions, and a node lies in the nearest one before it that has the id it names as its parent. In
the list of a tree in which no node has the id of one above it, this is the node it was put
under. -/
namespace FleetConsole.Tree

/-- The position of the node that the node at `i` lies in. -/
def container? (nodes : List Node) (i : Nat) : Option Nat :=
  (nodes[i]?.bind Node.parentId).bind
    (ParentFirst.lastIndex ((nodes.take i).map Node.id))

theorem lt_of_container? {nodes : List Node} {i j : Nat} (h : container? nodes i = some j) :
    j < i := by
  obtain ⟨p, -, hp⟩ := Option.bind_eq_some_iff.mp h
  have hlt := (List.getElem?_eq_some_iff.mp (ParentFirst.getElem?_of_lastIndex hp)).1
  rw [List.length_map, List.length_take] at hlt
  omega

/-- The position of the entity that the node at `i` lies in, whatever folders that stand for none
are between the two. -/
def enclosing? (nodes : List Node) (i : Nat) : Option Nat :=
  match _h : container? nodes i with
  | none => none
  | some j => if nodes[j]?.any (·.kind.isSynthetic) then enclosing? nodes j else some j
termination_by i
decreasing_by exact lt_of_container? _h

theorem enclosing?_of_none {nodes : List Node} {i : Nat} (h : container? nodes i = none) :
    enclosing? nodes i = none := by
  rw [enclosing?]
  split
  · rfl
  · simp_all

theorem enclosing?_of_some {nodes : List Node} {i j : Nat} (h : container? nodes i = some j) :
    enclosing? nodes i =
      if nodes[j]?.any (·.kind.isSynthetic) then enclosing? nodes j else some j := by
  rw [enclosing?]
  split
  · simp_all
  · rename_i k hk
    obtain rfl : j = k := Option.some.inj (h.symm.trans hk)
    rfl

theorem ParentFirst.lastIndex_eq_some {K : Type} [DecidableEq K] {keys : List K} {key : K} {i : Nat}
    (h : keys[i]? = some key) (hlast : ∀ j, i < j → keys[j]? ≠ some key) :
    lastIndex keys key = some i := by
  cases hindex : lastIndex keys key with
  | none =>
    exact absurd (List.mem_of_getElem? h) (lastIndex_eq_none_iff.mp hindex)
  | some j =>
    obtain ⟨k, hk, rfl⟩ := Option.map_eq_some_iff.mp hindex
    obtain ⟨hlt, -, hbefore⟩ := List.findIdx?_eq_some_iff_getElem.mp hk
    rw [List.length_reverse] at hlt
    have hget := getElem?_of_lastIndex hindex
    have hilt : i < keys.length := (List.getElem?_eq_some_iff.mp h).1
    have hle : ¬i < keys.length - 1 - k := fun hlt' => hlast _ hlt' hget
    have hge : ¬keys.length - 1 - k < i := by
      intro hlt'
      have hbad := hbefore (keys.length - 1 - i) (by omega)
      rw [List.getElem_reverse] at hbad
      have hidx : keys.length - 1 - (keys.length - 1 - i) = i := by omega
      have hkey : keys[i] = key := (List.getElem?_eq_some_iff.mp h).2
      simp only [hidx, hkey, decide_true, not_true_eq_false] at hbad
    congr 1
    omega

namespace Branch

/-- Laid out, the nodes of a branch differ in their parents only. -/
theorem map_flatten {α : Type} {f : Node → α}
    (hf : ∀ (n : Node) (p : Option NodeId), f { n with parentId := p } = f n) (b : Branch)
    (parent : Option NodeId) : (b.flatten parent).map f = b.nodes.map f := by
  induction b using Branch.induct generalizing parent with
  | step node children ih =>
    have hrest : children.flatMap (fun c => (c.flatten (some node.id)).map f) =
        children.flatMap (fun c => c.nodes.map f) :=
      List.flatMap_congr fun c hc => ih c hc _
    rw [flatten_eq, nodes_eq, List.map_cons, List.map_cons, List.map_flatMap, List.map_flatMap, hf,
      hrest]

/-- So what is read off nodes apart from their parents can be read off the clusters by
containment. -/
theorem map_clusterTree {α : Type} {f : Node → α}
    (hf : ∀ (n : Node) (p : Option NodeId), f { n with parentId := p } = f n) (catalog : Catalog)
    (g : ResourceGroup) (clusters : List Cluster) :
    (clusterTree catalog g clusters).map f = (groupBranch catalog g clusters).nodes.map f := by
  rw [clusterTree_eq]
  exact map_flatten hf _ none

def ids (b : Branch) : List NodeId := b.nodes.map Node.id

theorem map_id_flatMap_nodes (branches : List Branch) :
    (branches.flatMap nodes).map Node.id = branches.flatMap ids := by
  rw [List.map_flatMap]
  rfl

@[simp] theorem map_id_flatten (b : Branch) (parent : Option NodeId) :
    (b.flatten parent).map Node.id = b.ids :=
  map_flatten (fun _ _ => rfl) b parent

theorem ids_eq (b : Branch) : b.ids = b.node.id :: b.children.flatMap ids := by
  rw [ids, nodes_eq, List.map_cons, map_id_flatMap_nodes]

theorem id_mem_ids (b : Branch) : b.node.id ∈ b.ids := by
  rw [ids_eq]
  exact List.mem_cons_self

def size (b : Branch) : Nat := b.nodes.length

@[simp] theorem length_flatten (b : Branch) (parent : Option NodeId) :
    (b.flatten parent).length = b.size := by
  rw [← List.length_map Node.id, map_id_flatten, ids, List.length_map, size]

theorem size_eq (b : Branch) : b.size = 1 + (b.children.map size).sum := by
  rw [size, nodes_eq, List.length_cons, List.length_flatMap, Nat.add_comm]
  rfl

theorem size_pos (b : Branch) : 0 < b.size := by
  rw [size_eq]
  omega

/-- The first branches on the way down whose nodes are of another kind. -/
def front (p : NodeKind → Bool) : Branch → List Branch
  | ⟨node, children⟩ =>
    if p node.kind then (children.map (front p)).flatten else [⟨node, children⟩]

theorem front_of_pos {p : NodeKind → Bool} {b : Branch} (h : p b.node.kind = true) :
    b.front p = b.children.flatMap (front p) := by
  obtain ⟨node, children⟩ := b
  rw [front, if_pos h, List.flatMap_def]

theorem front_of_neg {p : NodeKind → Bool} {b : Branch} (h : p b.node.kind = false) :
    b.front p = [b] := by
  obtain ⟨node, children⟩ := b
  rw [front, if_neg (Bool.eq_false_iff.mp h)]

/-- No node has the id of one above it. -/
inductive Apart : Branch → Prop
  | intro {b : Branch} (id : ∀ c ∈ b.children, b.node.id ∉ c.ids)
      (below : ∀ c ∈ b.children, Apart c) : Apart b

end Branch

/-- A branch at the position that its node has in a list. -/
structure Spot where
  position : Nat
  branch : Branch

namespace Spot

/-- Branches side by side, the first at `start`. -/
def row (start : Nat) : List Branch → List Spot
  | [] => []
  | b :: rest => ⟨start, b⟩ :: row (start + b.size) rest

@[simp] theorem map_branch_row (start : Nat) (branches : List Branch) :
    (row start branches).map Spot.branch = branches := by
  induction branches generalizing start with
  | nil => rfl
  | cons b rest ih => simp [row, ih]

theorem bounds_of_mem_row {start : Nat} {branches : List Branch} {s : Spot}
    (h : s ∈ row start branches) :
    start ≤ s.position ∧
      s.position + s.branch.size ≤ start + (branches.map Branch.size).sum := by
  induction branches generalizing start with
  | nil => simp [row] at h
  | cons b rest ih =>
    rw [List.map_cons, List.sum_cons]
    rcases List.mem_cons.mp h with rfl | hrest
    · simp only
      omega
    · have hbounds := ih hrest
      omega

theorem pairwise_row (start : Nat) (branches : List Branch) :
    (row start branches).Pairwise fun s t => s.position + s.branch.size ≤ t.position := by
  induction branches generalizing start with
  | nil => exact .nil
  | cons b rest ih =>
    refine .cons (fun t ht => ?_) (ih _)
    exact (bounds_of_mem_row ht).1

theorem exists_mem_row {start : Nat} {branches : List Branch} {j : Nat} (hj : start ≤ j)
    (hend : j < start + (branches.map Branch.size).sum) :
    ∃ s ∈ row start branches, s.position ≤ j ∧ j < s.position + s.branch.size := by
  induction branches generalizing start with
  | nil =>
    simp only [List.map_nil, List.sum_nil] at hend
    omega
  | cons b rest ih =>
    by_cases hfirst : j < start + b.size
    · exact ⟨⟨start, b⟩, List.mem_cons_self, hj, hfirst⟩
    · rw [List.map_cons, List.sum_cons] at hend
      have hstart : start + b.size ≤ j := Nat.not_lt.mp hfirst
      obtain ⟨s, hs, hbounds⟩ := ih hstart (by omega)
      exact ⟨s, List.mem_cons_of_mem _ hs, hbounds⟩

/-- Spots in one row that share a position are the same. -/
theorem eq_of_mem_row {start : Nat} {branches : List Branch} {s t : Spot}
    (hs : s ∈ row start branches) (ht : t ∈ row start branches) {j : Nat} (hsj : s.position ≤ j)
    (hjs : j < s.position + s.branch.size) (htj : t.position ≤ j)
    (hjt : j < t.position + t.branch.size) : s = t := by
  by_contra hne
  have hapart : ∀ a ∈ row start branches, ∀ b ∈ row start branches, a ≠ b →
      a.position + a.branch.size ≤ b.position ∨ b.position + b.branch.size ≤ a.position := by
    intro a ha b hb hab
    have hsymm : (row start branches).Pairwise fun a b =>
        a.position + a.branch.size ≤ b.position ∨ b.position + b.branch.size ≤ a.position :=
      (pairwise_row start branches).imp .inl
    have : Std.Symm fun a b : Spot =>
        a.position + a.branch.size ≤ b.position ∨ b.position + b.branch.size ≤ a.position :=
      ⟨fun _ _ h => h.symm⟩
    exact hsymm.forall ha hb hab
  have hst := hapart s hs t ht hne
  omega

/-- The branches directly below a spot. -/
def children (s : Spot) : List Spot := row (s.position + 1) s.branch.children

theorem bounds_of_mem_children {s c : Spot} (h : c ∈ s.children) :
    s.position < c.position ∧
      c.position + c.branch.size ≤ s.position + s.branch.size := by
  have hbounds := bounds_of_mem_row h
  have hsize := s.branch.size_eq
  omega

theorem branch_of_mem_children {s c : Spot} (h : c ∈ s.children) :
    c.branch ∈ s.branch.children := by
  have hmem := List.mem_map_of_mem (f := Spot.branch) h
  rwa [children, map_branch_row] at hmem

/-- The spots of a tree from one spot on. -/
abbrev Below : Spot → Spot → Prop := Relation.ReflTransGen fun s c => c ∈ s.children

theorem bounds_of_below {s t : Spot} (h : Below s t) :
    s.position ≤ t.position ∧ t.position + t.branch.size ≤ s.position + s.branch.size := by
  induction h with
  | refl => exact ⟨Nat.le_refl _, Nat.le_refl _⟩
  | tail _ hc ih =>
    have hbounds := bounds_of_mem_children hc
    omega

theorem exists_below {s : Spot} {j : Nat} (hj : s.position ≤ j)
    (hend : j < s.position + s.branch.size) : ∃ t, Below s t ∧ t.position = j := by
  obtain ⟨position, branch⟩ := s
  induction branch using Branch.induct generalizing position with
  | step node branches ih =>
    by_cases hroot : position = j
    · exact ⟨_, .refl, hroot⟩
    · rw [Branch.size_eq] at hend
      simp only at hj hend
      have hfirst : position + 1 ≤ j := by omega
      have hlast : j < position + 1 + (branches.map Branch.size).sum := by omega
      obtain ⟨c, hc, hcj, hjc⟩ := exists_mem_row hfirst hlast
      have hchild : c ∈ children ⟨position, ⟨node, branches⟩⟩ := hc
      obtain ⟨t, ht, hpos⟩ := ih c.branch (branch_of_mem_children hchild) c.position hcj hjc
      exact ⟨t, .head hchild ht, hpos⟩

/-- A position belongs to one spot of a tree only. -/
theorem eq_of_below {s t u : Spot} (ht : Below s t) (hu : Below s u)
    (h : t.position = u.position) : t = u := by
  obtain ⟨position, branch⟩ := s
  induction branch using Branch.induct generalizing position with
  | step node branches ih =>
    rcases Relation.ReflTransGen.cases_head ht with rfl | ⟨c, hc, hct⟩
    · rcases Relation.ReflTransGen.cases_head hu with rfl | ⟨d, hd, hdu⟩
      · rfl
      · have hchild := bounds_of_mem_children hd
        have hbelow := bounds_of_below hdu
        omega
    · rcases Relation.ReflTransGen.cases_head hu with rfl | ⟨d, hd, hdu⟩
      · have hchild := bounds_of_mem_children hc
        have hbelow := bounds_of_below hct
        omega
      · have hcbounds := bounds_of_below hct
        have hdbounds := bounds_of_below hdu
        have htpos := t.branch.size_pos
        have hupos := u.branch.size_pos
        obtain rfl : c = d :=
          eq_of_mem_row hc hd hcbounds.1 (by omega) (h ▸ hdbounds.1) (by omega)
        exact ih c.branch (branch_of_mem_children hc) c.position hct hdu

/-- The spots from one on as far as the nodes on the way are of a kind. -/
abbrev Opens (p : NodeKind → Bool) : Spot → Spot → Prop :=
  Relation.ReflTransGen fun s c => p s.branch.node.kind = true ∧ c ∈ s.children

theorem below_of_opens {p : NodeKind → Bool} {s t : Spot} (h : Opens p s t) : Below s t :=
  Relation.ReflTransGen.mono (fun _ _ hstep => hstep.2) _ _ h

theorem eq_of_opens {p : NodeKind → Bool} {s t : Spot} (h : Opens p s t)
    (hs : p s.branch.node.kind = false) : t = s := by
  rcases Relation.ReflTransGen.cases_head h with rfl | ⟨c, hc, -⟩
  · rfl
  · exact absurd hc.1 (by simp [hs])

/-- In a row every branch of the fronts has a spot of its own. -/
theorem exists_front_row {p : NodeKind → Bool} {branches : List Branch}
    (h : ∀ b ∈ branches, ∀ start, ∃ spots : List Spot, spots.map Spot.branch = b.front p ∧
      spots.Pairwise (fun s t => s.position < t.position) ∧
      ∀ t, t ∈ spots ↔ Opens p ⟨start, b⟩ t ∧ p t.branch.node.kind = false) (start : Nat) :
    ∃ spots : List Spot, spots.map Spot.branch = branches.flatMap (Branch.front p) ∧
      spots.Pairwise (fun s t => s.position < t.position) ∧
      ∀ t, t ∈ spots ↔ ∃ s ∈ row start branches, Opens p s t ∧ p t.branch.node.kind = false := by
  induction branches generalizing start with
  | nil => exact ⟨[], by simp [row]⟩
  | cons b rest ih =>
    obtain ⟨first, hfirst, hfirstOrder, hfirstMem⟩ := h b List.mem_cons_self start
    obtain ⟨others, hothers, hothersOrder, hothersMem⟩ :=
      ih (fun c hc => h c (List.mem_cons_of_mem _ hc)) (start + b.size)
    refine ⟨first ++ others, ?_, ?_, fun t => ?_⟩
    · rw [List.map_append, hfirst, hothers, List.flatMap_cons]
    · refine List.pairwise_append.mpr ⟨hfirstOrder, hothersOrder, fun s hs t ht => ?_⟩
      obtain ⟨r, hr, hrt, -⟩ := (hothersMem t).mp ht
      have hsbounds := bounds_of_below (below_of_opens ((hfirstMem s).mp hs).1)
      have hrbounds := bounds_of_mem_row hr
      have htbounds := bounds_of_below (below_of_opens hrt)
      have hsize := s.branch.size_pos
      simp only at hsbounds
      omega
    · rw [List.mem_append, hfirstMem, hothersMem]
      simp [row]

/-- Every branch of a front has a spot of its own. -/
theorem exists_front (p : NodeKind → Bool) (b : Branch) (start : Nat) :
    ∃ spots : List Spot, spots.map Spot.branch = b.front p ∧
      spots.Pairwise (fun s t => s.position < t.position) ∧
      ∀ t, t ∈ spots ↔ Opens p ⟨start, b⟩ t ∧ p t.branch.node.kind = false := by
  induction b using Branch.induct generalizing start with
  | step node branches ih =>
    by_cases hp : p node.kind = true
    · obtain ⟨spots, hmap, horder, hmem⟩ := exists_front_row ih (start + 1)
      refine ⟨spots, by rw [hmap, Branch.front_of_pos hp], horder, fun t => ?_⟩
      rw [hmem]
      constructor
      · rintro ⟨c, hc, hct, ht⟩
        exact ⟨.head ⟨hp, hc⟩ hct, ht⟩
      · rintro ⟨hopens, ht⟩
        rcases Relation.ReflTransGen.cases_head hopens with rfl | ⟨c, hc, hct⟩
        · exact absurd hp (by simp [ht])
        · exact ⟨c, hc.2, hct, ht⟩
    · rw [Bool.not_eq_true] at hp
      refine ⟨[⟨start, ⟨node, branches⟩⟩], by rw [Branch.front_of_neg hp]; rfl,
        List.pairwise_singleton _ _, fun t => ?_⟩
      rw [List.mem_singleton]
      constructor
      · rintro rfl
        exact ⟨.refl, hp⟩
      · rintro ⟨hopens, -⟩
        exact eq_of_opens hopens hp

/-- A list whose image is permuted can be permuted along. -/
theorem exists_map_eq_of_perm {α β : Type} {f : α → β} {l : List α} {image : List β}
    (h : image.Perm (l.map f)) : ∃ l' : List α, image = l'.map f ∧ l'.Perm l := by
  have hcomp := congrFun (congrFun (List.eq_map_comp_perm f) image) l
  exact hcomp.mpr h

/-- The first branches below a spot whose nodes are of another kind have spots of their own, in any
order. -/
theorem exists_spots_of_perm {p : NodeKind → Bool} {s : Spot} {branches : List Branch}
    (h : branches.Perm (s.branch.children.flatMap (Branch.front p))) :
    ∃ spots : List Spot, spots.map Spot.branch = branches ∧ spots.Nodup ∧
      ∀ t, t ∈ spots ↔ ∃ c ∈ s.children, Opens p c t ∧ p t.branch.node.kind = false := by
  obtain ⟨spots, hmap, horder, hmem⟩ := exists_front_row
    (fun b (_ : b ∈ s.branch.children) start => exists_front p b start) (s.position + 1)
  rw [← hmap] at h
  obtain ⟨spots', hmap', hperm⟩ := exists_map_eq_of_perm h
  have hnodup : spots.Nodup := horder.imp fun hlt heq => absurd (heq ▸ hlt) (Nat.lt_irrefl _)
  refine ⟨spots', hmap'.symm, hperm.nodup_iff.mpr hnodup, fun t => ?_⟩
  rw [hperm.mem_iff, hmem]
  rfl

/-- The list has the nodes of the branch from its position on, the first one with the parent. -/
def Fits (nodes : List Node) (parent : Option NodeId) (s : Spot) : Prop :=
  s.branch.flatten parent <+: nodes.drop s.position

variable {nodes : List Node} {parent : Option NodeId}

theorem getElem?_of_fits {s : Spot} (h : Fits nodes parent s) {k : Nat} (hk : k < s.branch.size) :
    nodes[s.position + k]? = (s.branch.flatten parent)[k]? := by
  obtain ⟨rest, hrest⟩ := h
  rw [← List.getElem?_drop, ← hrest, List.getElem?_append_left (by simpa using hk)]

theorem node_of_fits {s : Spot} (h : Fits nodes parent s) :
    nodes[s.position]? = some { s.branch.node with parentId := parent } := by
  have hfirst := getElem?_of_fits h s.branch.size_pos
  rwa [Nat.add_zero, Branch.flatten_eq] at hfirst

theorem fits_of_mem_row {start : Nat} {branches : List Branch}
    (h : branches.flatMap (Branch.flatten parent) <+: nodes.drop start) {c : Spot}
    (hc : c ∈ row start branches) : Fits nodes parent c := by
  induction branches generalizing start with
  | nil => simp [row] at hc
  | cons b rest ih =>
    obtain ⟨tail, htail⟩ := h
    rw [List.flatMap_cons, List.append_assoc] at htail
    rcases List.mem_cons.mp hc with rfl | hrest
    · exact ⟨_, htail⟩
    · refine ih ⟨tail, ?_⟩ hrest
      have hdrop := congrArg (List.drop b.size) htail
      rwa [List.drop_left' (by simp), List.drop_drop] at hdrop

theorem fits_of_mem_children {s c : Spot} (h : Fits nodes parent s) (hc : c ∈ s.children) :
    Fits nodes (some s.branch.node.id) c := by
  refine fits_of_mem_row ?_ hc
  obtain ⟨rest, hrest⟩ := h
  refine ⟨rest, ?_⟩
  have hdrop := congrArg (List.drop 1) hrest
  rw [Branch.flatten_eq] at hdrop
  rwa [List.drop_drop] at hdrop

/-- What was put under a node lies in it. -/
theorem container?_of_mem_children {s c : Spot} (h : Fits nodes parent s) (hapart : s.branch.Apart)
    (hc : c ∈ s.children) : container? nodes c.position = some s.position := by
  have hbounds := bounds_of_mem_children hc
  have hsize := c.branch.size_pos
  have hnode := node_of_fits (fits_of_mem_children h hc)
  rw [container?, hnode]
  refine ParentFirst.lastIndex_eq_some ?_ fun j hj hid => ?_
  · rw [List.getElem?_map, List.getElem?_take_of_lt hbounds.1, node_of_fits h]
    rfl
  · -- the nodes between the two are below `s`
    rw [List.getElem?_map, Option.map_eq_some_iff] at hid
    obtain ⟨n, hn, hnid⟩ := hid
    have hjc : j < c.position := by
      have hlt := (List.getElem?_eq_some_iff.mp hn).1
      rw [List.length_take] at hlt
      omega
    rw [List.getElem?_take_of_lt hjc] at hn
    have hk := getElem?_of_fits h (k := j - s.position) (by omega)
    rw [show s.position + (j - s.position) = j by omega, hn] at hk
    obtain ⟨i, hi⟩ : ∃ i, j - s.position = i + 1 := ⟨j - s.position - 1, by omega⟩
    rw [hi, Branch.flatten_eq, List.getElem?_cons_succ] at hk
    obtain ⟨b, hb, hnb⟩ := List.mem_flatMap.mp (List.mem_of_getElem? hk.symm)
    have hmem : n.id ∈ b.ids := by
      rw [← Branch.map_id_flatten b (some s.branch.node.id)]
      exact List.mem_map_of_mem hnb
    cases hapart with
    | intro hids _ => exact hids b hb (hnid ▸ hmem)

end Spot

namespace Branch

/-- The whole tree as a spot of its list. -/
def root (b : Branch) : Spot := ⟨0, b⟩

variable {b : Branch}

theorem fits_root (b : Branch) : Spot.Fits (b.flatten none) none b.root :=
  List.prefix_refl _

theorem exists_fits {s : Spot} (h : Spot.Below b.root s) :
    ∃ parent, Spot.Fits (b.flatten none) parent s := by
  induction h with
  | refl => exact ⟨none, b.fits_root⟩
  | tail _ hc ih =>
    obtain ⟨parent, hfits⟩ := ih
    exact ⟨_, Spot.fits_of_mem_children hfits hc⟩

theorem Apart.of_below {s t : Spot} (hs : s.branch.Apart) (h : Spot.Below s t) :
    t.branch.Apart := by
  induction h with
  | refl => exact hs
  | tail _ hc ih =>
    have hchild := Spot.branch_of_mem_children hc
    cases ih with
    | intro _ hbelow => exact hbelow _ hchild

theorem exists_spot {j : Nat} (h : j < (b.flatten none).length) :
    ∃ s, Spot.Below b.root s ∧ s.position = j := by
  refine Spot.exists_below (Nat.zero_le j) ?_
  rw [length_flatten] at h
  simpa [root] using h

/-- The containers in the list of a tree are those of the tree. -/
theorem container?_eq_some_iff (hapart : b.Apart) {s : Spot} (hs : Spot.Below b.root s) {j : Nat} :
    container? (b.flatten none) j = some s.position ↔ ∃ c ∈ s.children, c.position = j := by
  constructor
  · intro h
    have hj : j < (b.flatten none).length := by
      by_contra hout
      rw [container?, List.getElem?_eq_none (Nat.not_lt.mp hout)] at h
      simp at h
    obtain ⟨c, hc, rfl⟩ := exists_spot hj
    rcases Relation.ReflTransGen.cases_tail hc with hroot | ⟨t, ht, htc⟩
    · rw [hroot, container?, Spot.node_of_fits b.fits_root] at h
      simp at h
    · obtain ⟨parent, hfits⟩ := exists_fits ht
      rw [Spot.container?_of_mem_children hfits (hapart.of_below ht) htc] at h
      obtain rfl := Spot.eq_of_below ht hs (Option.some.inj h)
      exact ⟨c, htc, rfl⟩
  · rintro ⟨c, hc, rfl⟩
    obtain ⟨parent, hfits⟩ := exists_fits hs
    exact Spot.container?_of_mem_children hfits (hapart.of_below hs) hc

theorem parent_mem_before_flatten {before after : List Node} {n : Node} {p : NodeId}
    (hapart : b.Apart) (h : b.flatten none = before ++ n :: after) (hp : n.parentId = some p) :
    p ≠ n.id ∧ p ∈ before.map Node.id := by
  have hn : (b.flatten none)[before.length]? = some n := by simp [h]
  have hlt : before.length < (b.flatten none).length := by simp [h]
  obtain ⟨t, ht, hpos⟩ := exists_spot hlt
  rcases Relation.ReflTransGen.cases_tail ht with hroot | ⟨m, hm, hmt⟩
  · have hfirst := Spot.node_of_fits b.fits_root
    rw [← hroot, hpos, hn] at hfirst
    rw [Option.some.inj hfirst] at hp
    exact absurd hp (by simp)
  · obtain ⟨parent, hfits⟩ := exists_fits hm
    have hnode := Spot.node_of_fits (Spot.fits_of_mem_children hfits hmt)
    rw [hpos, hn] at hnode
    rw [Option.some.inj hnode] at hp ⊢
    obtain rfl : m.branch.node.id = p := Option.some.inj hp
    constructor
    · cases hapart.of_below hm with
      | intro hid _ =>
        intro heq
        exact hid _ (Spot.branch_of_mem_children hmt) (heq ▸ t.branch.id_mem_ids)
    · have hbefore := Spot.node_of_fits hfits
      have hmlt := (Spot.bounds_of_mem_children hmt).1
      rw [h, List.getElem?_append_left (hpos ▸ hmlt)] at hbefore
      exact List.mem_map.mpr ⟨_, List.mem_of_getElem? hbefore, rfl⟩

theorem enclosing?_root (b : Branch) : enclosing? (b.flatten none) 0 = none := by
  apply enclosing?_of_none
  have hfirst := Spot.node_of_fits b.fits_root
  rw [container?, show (0 : Nat) = b.root.position from rfl, hfirst]
  rfl

theorem enclosing?_of_mem_children (hapart : b.Apart) {m c : Spot} (hm : Spot.Below b.root m)
    (hc : c ∈ m.children) :
    enclosing? (b.flatten none) c.position =
      if m.branch.node.kind.isSynthetic then enclosing? (b.flatten none) m.position
      else some m.position := by
  obtain ⟨parent, hfits⟩ := exists_fits hm
  rw [enclosing?_of_some ((container?_eq_some_iff hapart hm).mpr ⟨c, hc, rfl⟩),
    Spot.node_of_fits hfits]
  rfl

/-- What lies in an entity is what is found below it on a way through other folders. -/
theorem enclosing?_eq_some_iff (hapart : b.Apart) {s : Spot} (hs : Spot.Below b.root s)
    (hkind : s.branch.node.kind.isSynthetic = false) {j : Nat} :
    enclosing? (b.flatten none) j = some s.position ↔
      ∃ c ∈ s.children, ∃ t, Spot.Opens NodeKind.isSynthetic c t ∧ t.position = j := by
  constructor
  · intro h
    have hj : j < (b.flatten none).length := by
      by_contra hout
      have hnone : container? (b.flatten none) j = none := by
        rw [container?, List.getElem?_eq_none (Nat.not_lt.mp hout)]
        rfl
      simp [enclosing?_of_none hnone] at h
    obtain ⟨t, ht, rfl⟩ := exists_spot hj
    induction ht with
    | refl =>
      rw [show b.root.position = 0 from rfl, enclosing?_root] at h
      exact absurd h (by simp)
    | @tail m t hm hmt ih =>
      rw [enclosing?_of_mem_children hapart hm hmt] at h
      by_cases hsynthetic : m.branch.node.kind.isSynthetic = true
      · rw [if_pos hsynthetic] at h
        have hmlt := (Spot.bounds_of_mem_children hmt).1
        obtain ⟨c, hc, u, hcu, hu⟩ := ih h (hmlt.trans hj)
        have hbelow : Spot.Below b.root u := (hs.tail hc).trans (Spot.below_of_opens hcu)
        obtain rfl := Spot.eq_of_below hbelow hm hu
        exact ⟨c, hc, t, hcu.tail ⟨hsynthetic, hmt⟩, rfl⟩
      · rw [if_neg hsynthetic] at h
        obtain rfl := Spot.eq_of_below hm hs (Option.some.inj h)
        exact ⟨t, hmt, t, .refl, rfl⟩
  · rintro ⟨c, hc, t, hct, rfl⟩
    induction hct with
    | refl => rw [enclosing?_of_mem_children hapart hs hc, if_neg (by simp [hkind])]
    | @tail m t hm hmt ih =>
      have hbelow : Spot.Below b.root m := (hs.tail hc).trans (Spot.below_of_opens hm)
      rw [enclosing?_of_mem_children hapart hbelow hmt.2, if_pos hmt.1, ih]

end Branch

end FleetConsole.Tree
