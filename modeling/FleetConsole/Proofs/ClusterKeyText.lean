import FleetConsole.Proofs.ClusterForest

/-! Whether the text of a cluster key tells the key. The group and the types are read off the text,
and so are the resource keys unless one hides an id behind a colon: then the text also reads as
that of another key, and two clusters of one group share the id of a node. -/
namespace FleetConsole

namespace ClusterKey

/-- Behind one of the colons stands the text of an id, up to the next colon or to the end. -/
def HidesId (resourceKey : String) : Prop :=
  ∃ (front rest : List Char) (id : TypeId),
    resourceKey.toList = front ++ ':' :: (id.text.toList ++ rest) ∧ ∀ ch ∈ rest.head?, ch = ':'

theorem HidesId.mem_colon {resourceKey : String} (h : HidesId resourceKey) :
    ':' ∈ resourceKey.toList := by
  obtain ⟨front, rest, id, htext, -⟩ := h
  simp [htext]

/-- What the text of a key has behind the id of the group. -/
def tail (path : List (TypeId × String)) : List Char :=
  path.flatMap fun step => ':' :: (step.1.text.toList ++ ':' :: step.2.toList)

@[simp] theorem tail_nil : tail [] = [] := rfl

@[simp] theorem tail_cons (step : TypeId × String) (rest : List (TypeId × String)) :
    tail (step :: rest) =
      ':' :: (step.1.text.toList ++ ':' :: (step.2.toList ++ tail rest)) := by
  simp [tail]

theorem head?_tail (path : List (TypeId × String)) : ∀ ch ∈ (tail path).head?, ch = ':' := by
  cases path with
  | nil => simp
  | cons step rest => simp

theorem toList_text (k : ClusterKey) :
    k.text.toList = k.groupId.text.toList ++ tail k.path := by
  obtain ⟨groupId, path⟩ := k
  have hfold (s : String) :
      (path.foldl (fun s step => s ++ ":" ++ step.1.text ++ ":" ++ step.2) s).toList =
        s.toList ++ tail path := by
    induction path generalizing s with
    | nil => simp
    | cons step rest ih => simp [ih]
  exact hfold groupId.text

section Reading

variable {path path' : List (TypeId × String)}

theorem append_colon_inj {a b rest rest' : List Char} (ha : ':' ∉ a) (hb : ':' ∉ b)
    (hrest : ∀ ch ∈ rest.head?, ch = ':') (hrest' : ∀ ch ∈ rest'.head?, ch = ':')
    (h : a ++ rest = b ++ rest') : a = b ∧ rest = rest' := by
  have hab : a = b := by
    rw [← takeWhile_append_mark ha hrest, h, takeWhile_append_mark hb hrest']
  rw [hab] at h
  exact ⟨hab, List.append_cancel_left h⟩

theorem notMem_text (typeId : TypeId) : ':' ∉ typeId.text.toList :=
  notMem_idText (by decide) (by decide) typeId.val

/-- The id at the front of what is left of one path stands, with its colon, in `d`. -/
theorem hidesId_of_tail_eq_append {r : String} {front d : List Char} (hd : d ≠ [])
    (htail : tail path = d ++ tail path') (hr : r.toList = front ++ d) : HidesId r := by
  cases path with
  | nil => exact absurd (List.append_eq_nil_iff.mp htail.symm).1 hd
  | cons step rest =>
    obtain ⟨typeId, resourceKey⟩ := step
    obtain ⟨ch, d, rfl⟩ := List.exists_cons_of_ne_nil hd
    rw [tail_cons, List.cons_append, List.cons.injEq] at htail
    obtain ⟨rfl, htail⟩ := htail
    rcases List.append_eq_append_iff.mp htail with ⟨e, rfl, he⟩ | ⟨e, hid, he⟩
    · refine ⟨front, e, typeId, hr, fun ch hch => ?_⟩
      obtain ⟨e', rfl⟩ := List.head?_eq_some_iff.mp hch
      exact (List.cons.inj he).1.symm
    · have hnil : e = [] := by
        refine List.eq_nil_iff_forall_not_mem.mpr fun ch hch => ?_
        obtain ⟨first, e', rfl⟩ := List.exists_cons_of_ne_nil (List.ne_nil_of_mem hch)
        have hcolon := head?_tail path' first (by simp [he])
        exact notMem_text typeId (by simp [hid, hcolon])
      refine ⟨front, [], typeId, ?_, by simp⟩
      rw [hr, hid, hnil, List.append_nil, List.append_nil]

theorem eq_or_hidesId_of_append {r r' : String} {d : List Char} (hr : r'.toList = r.toList ++ d)
    (htail : tail path = d ++ tail path') : r = r' ∧ tail path = tail path' ∨ HidesId r' := by
  by_cases hd : d = []
  · subst hd
    exact .inl ⟨String.toList_inj.mp (by simpa using hr.symm), htail⟩
  · exact .inr (hidesId_of_tail_eq_append hd htail hr)

/-- Of two resource keys that may stand at one place, the longer one hides an id. -/
theorem eq_or_hidesId_of_key_eq {r r' : String}
    (h : r.toList ++ tail path = r'.toList ++ tail path') :
    r = r' ∧ tail path = tail path' ∨ HidesId r ∨ HidesId r' := by
  rcases List.append_eq_append_iff.mp h with ⟨d, hr, hd⟩ | ⟨d, hr, hd⟩
  · exact (eq_or_hidesId_of_append hr hd).imp_right .inr
  · rcases eq_or_hidesId_of_append hr hd with ⟨hkey, hrest⟩ | hhides
    · exact .inl ⟨hkey.symm, hrest.symm⟩
    · exact .inr (.inl hhides)

/-- Paths with one text are the same, step by step, as long as no resource key hides an id. -/
theorem eq_or_hidesId_of_tail_eq (h : tail path = tail path') :
    path = path' ∨ ∃ step ∈ path ++ path', HidesId step.2 := by
  induction path generalizing path' with
  | nil =>
    cases path' with
    | nil => exact .inl rfl
    | cons step rest => simp at h
  | cons step rest ih =>
    cases path' with
    | nil => simp at h
    | cons step' rest' =>
      obtain ⟨typeId, r⟩ := step
      obtain ⟨typeId', r'⟩ := step'
      rw [tail_cons, tail_cons, List.cons.injEq] at h
      obtain ⟨htype, hkeys⟩ := append_colon_inj (notMem_text typeId) (notMem_text typeId')
        (by simp) (by simp) h.2
      obtain rfl : typeId = typeId' :=
        congrArg TypeId.mk (idText_injective (String.toList_inj.mp htype))
      rcases eq_or_hidesId_of_key_eq (List.cons.inj hkeys).2 with ⟨rfl, hrest⟩ | hhides | hhides
      · rcases ih hrest with rfl | ⟨step, hstep, hhides⟩
        · exact .inl rfl
        · have hmem := (List.mem_append.mp hstep).imp (List.mem_cons_of_mem (typeId, r))
            (List.mem_cons_of_mem (typeId, r))
          exact .inr ⟨step, List.mem_append.mpr hmem, hhides⟩
      · exact .inr ⟨(typeId, r), by simp, hhides⟩
      · exact .inr ⟨(typeId, r'), by simp, hhides⟩

end Reading

theorem path_eq_or_hidesId {k k' : ClusterKey} (h : k.text = k'.text) :
    k.groupId = k'.groupId ∧ (k.path = k'.path ∨ ∃ step ∈ k.path ++ k'.path, HidesId step.2) := by
  rw [← String.toList_inj, toList_text, toList_text] at h
  have hcolon (g : GroupId) : ':' ∉ g.text.toList := notMem_idText (by decide) (by decide) g.val
  obtain ⟨hgroup, htail⟩ :=
    append_colon_inj (hcolon _) (hcolon _) (head?_tail _) (head?_tail _) h
  exact ⟨congrArg GroupId.mk (idText_injective (String.toList_inj.mp hgroup)),
    eq_or_hidesId_of_tail_eq htail⟩

/-- A resource key that hides an id may be cut at the colon, and what is behind the id read as the
resource key of a cluster further down. -/
theorem exists_tail_eq {r : String} (h : HidesId r) (typeId : TypeId) :
    ∃ path path', (typeId, r) ∈ path ∧ path' ≠ [] ∧ path ≠ path' ∧ tail path = tail path' := by
  obtain ⟨front, rest, id, htext, hrest⟩ := h
  have hne : r ≠ String.ofList front := by
    intro heq
    have hlength := congrArg List.length htext
    simp [heq] at hlength
  cases rest with
  | nil =>
    refine ⟨[(typeId, r), (id, "")], [(typeId, .ofList front), (id, id.text ++ ":")], by simp,
      by simp, by simp [hne], ?_⟩
    simp [htext]
  | cons ch rest =>
    obtain rfl := hrest ch rfl
    refine ⟨[(typeId, r)], [(typeId, .ofList front), (id, .ofList rest)], by simp, by simp,
      by simp, ?_⟩
    simp [htext]

end ClusterKey

namespace Tree

open ClusterKey

section Nodes

variable {catalog : Catalog}

theorem id_of_mem_below {key k : ClusterKey} {clusters : List Cluster} {n : Node}
    (hn : n ∈ (below catalog key clusters).flatMap Branch.nodes)
    (hk : n.kind.clusterKey? = some k) : n.id = ⟨k.text⟩ := by
  induction clusters using Cluster.induct generalizing key with
  | step clusters ih =>
    obtain ⟨folders, hperm, hfolders⟩ := exists_folders_below catalog key clusters
    rcases List.mem_append.mp (hperm.mem_iff.mp hn) with hfolder | hcluster
    · rw [(hfolders n hfolder).2] at hk
      cases hk
    · obtain ⟨c, hc, hmem⟩ := List.mem_flatMap.mp hcluster
      rw [Branch.nodes_eq, branchOf_children] at hmem
      rcases List.mem_cons.mp hmem with rfl | hbelow
      · rw [kind_branchOf] at hk
        obtain rfl := Option.some.inj hk
        rw [branchOf_node]
        rfl
      · exact ih c hc hbelow

variable {g : ResourceGroup} {clusters : List Cluster} {k : ClusterKey} {id : NodeId}

theorem exists_mem_clusterTree_iff (P : NodeId × NodeKind → Prop) :
    (∃ n ∈ clusterTree catalog g clusters, P (n.id, n.kind)) ↔
      ∃ n ∈ (groupBranch catalog g clusters).nodes, P (n.id, n.kind) := by
  have hmap := Branch.map_clusterTree (f := fun n => (n.id, n.kind)) (fun _ _ => rfl) catalog g
    clusters
  have hsame := congrArg (fun l => ∃ q ∈ l, P q) hmap
  simpa using hsame

variable (catalog) in
/-- The clusters in the tree of a group have the texts of their keys as ids. -/
theorem exists_clusterNode_iff :
    (∃ n ∈ clusterTree catalog g clusters, n.kind.clusterKey? = some k ∧ n.id = id) ↔
      k ∈ clusters.flatMap (clusterKeys (.root g.id)) ∧ id = ⟨k.text⟩ := by
  have hkeys := (perm_keys_below catalog (.root g.id) clusters).mem_iff (a := k)
  refine (exists_mem_clusterTree_iff fun q => q.2.clusterKey? = some k ∧ q.1 = id).trans ?_
  rw [Branch.nodes_eq, groupBranch_children]
  constructor
  · rintro ⟨n, hn, hk, rfl⟩
    rcases List.mem_cons.mp hn with rfl | hbelow
    · cases hk
    · exact ⟨hkeys.mp (List.mem_filterMap.mpr ⟨n, hbelow, hk⟩), id_of_mem_below hbelow hk⟩
  · rintro ⟨hk, rfl⟩
    obtain ⟨n, hn, hnk⟩ := List.mem_filterMap.mp (hkeys.mpr hk)
    exact ⟨n, List.mem_cons_of_mem _ hn, hnk, id_of_mem_below hn hnk⟩

end Nodes

/-- A cluster for each step of a path, each below the one before. -/
def along : List (TypeId × String) → List Cluster
  | [] => []
  | (typeId, resourceKey) :: rest => [⟨typeId, resourceKey, resourceKey, 1, 1, along rest⟩]

theorem mem_keys_along {path : List (TypeId × String)} (h : path ≠ []) (key : ClusterKey) :
    ⟨key.groupId, key.path ++ path⟩ ∈ (along path).flatMap (clusterKeys key) := by
  induction path generalizing key with
  | nil => exact absurd rfl h
  | cons step rest ih =>
    obtain ⟨typeId, resourceKey⟩ := step
    rw [along, List.flatMap_cons, List.flatMap_nil, List.append_nil, clusterKeys_eq]
    cases rest with
    | nil => exact List.mem_cons_self
    | cons step rest =>
      have hbelow := ih (by simp) (key.child typeId resourceKey)
      rw [ClusterKey.child, List.append_assoc] at hbelow
      exact List.mem_cons_of_mem _ hbelow

theorem exists_node_along (catalog : Catalog) (g : ResourceGroup) {clusters : List Cluster}
    {path : List (TypeId × String)} (hpath : path ≠ []) (h : along path ⊆ clusters) :
    ∃ n ∈ clusterTree catalog g clusters, n.kind.clusterKey? = some ⟨g.id, path⟩ ∧
      n.id = ⟨(⟨g.id, path⟩ : ClusterKey).text⟩ := by
  refine (exists_clusterNode_iff catalog).mpr ⟨?_, rfl⟩
  obtain ⟨c, hc, hkey⟩ := List.mem_flatMap.mp (mem_keys_along hpath (.root g.id))
  exact List.mem_flatMap.mpr ⟨c, h hc, hkey⟩

theorem checkedClusterTree_of_not_nodup {catalog : Catalog} {g : ResourceGroup}
    {clusters : List Cluster} (h : ¬((clusterTree catalog g clusters).map Node.id).Nodup) :
    ∃ fault, checkedClusterTree catalog g clusters = .error fault := by
  cases horder : violations (clusterTree catalog g clusters) [] with
  | nil => exact absurd ((violations_eq_nil_iff _ _).mp horder).nodup h
  | cons first rest =>
    refine ⟨orderFault first (first :: rest), ?_⟩
    rw [checkedClusterTree, ensureOrder, horder]
    rfl

theorem checkedClusterTree_of_shared_id {catalog : Catalog} {g : ResourceGroup}
    {clusters : List Cluster} {n m : Node} (hn : n ∈ clusterTree catalog g clusters)
    (hm : m ∈ clusterTree catalog g clusters) (hne : n ≠ m) (hid : n.id = m.id) :
    ∃ fault, checkedClusterTree catalog g clusters = .error fault :=
  checkedClusterTree_of_not_nodup fun hnodup => hne (List.inj_on_of_nodup_map hnodup hn hm hid)

/-- Cluster keys with one text are of one group, and are the same unless a resource key hides an
id. Every such resource key brings two clusters of a group to one id, so that the tree is refused;
in the tree of a group without one, clusters with one id have one key. -/
theorem cluster_ids_collide_by_hidden_ids (catalog : Catalog) (g : ResourceGroup) :
    (∀ k k' : ClusterKey, k.text = k'.text →
      k.groupId = k'.groupId ∧
        (k = k' ∨ ∃ step ∈ k.path ++ k'.path, HidesId step.2)) ∧
    (∀ r, HidesId r → ∀ typeId, ∃ clusters k k', (typeId, r) ∈ k.path ∧ k ≠ k' ∧
      ∃ n ∈ clusterTree catalog g clusters, ∃ m ∈ clusterTree catalog g clusters,
        n.kind.clusterKey? = some k ∧ m.kind.clusterKey? = some k' ∧ n.id = m.id ∧
        ∃ fault, checkedClusterTree catalog g clusters = .error fault) ∧
    (∀ clusters, (∀ k ∈ clusters.flatMap (clusterKeys (.root g.id)),
        ∀ step ∈ k.path, ¬ HidesId step.2) →
      ∀ n ∈ clusterTree catalog g clusters, ∀ m ∈ clusterTree catalog g clusters,
        ∀ k k', n.kind.clusterKey? = some k → m.kind.clusterKey? = some k' → n.id = m.id →
          k = k') := by
  have hread (k k' : ClusterKey) (h : k.text = k'.text) : k.groupId = k'.groupId ∧
      (k = k' ∨ ∃ step ∈ k.path ++ k'.path, HidesId step.2) := by
    obtain ⟨hgroup, hpath⟩ := path_eq_or_hidesId h
    refine ⟨hgroup, hpath.imp_left fun hpath => ?_⟩
    rw [ClusterKey.mk.injEq]
    exact ⟨hgroup, hpath⟩
  refine ⟨hread, fun r hr typeId => ?_, fun clusters hclear n hn m hm k k' hk hk' hid => ?_⟩
  · obtain ⟨path, path', hmem, hpath', hne, htail⟩ := exists_tail_eq hr typeId
    have htext : (⟨g.id, path⟩ : ClusterKey).text = (⟨g.id, path'⟩ : ClusterKey).text := by
      rw [← String.toList_inj, toList_text, toList_text, htail]
    obtain ⟨n, hn, hk, hnid⟩ := exists_node_along catalog g
      (List.ne_nil_of_mem hmem) (List.subset_append_left (along path) (along path'))
    obtain ⟨m, hm, hk', hmid⟩ := exists_node_along catalog g hpath'
      (List.subset_append_right (along path) (along path'))
    have hid : n.id = m.id := by rw [hnid, hmid, htext]
    have hkeys : (⟨g.id, path⟩ : ClusterKey) ≠ ⟨g.id, path'⟩ :=
      fun heq => hne (congrArg ClusterKey.path heq)
    have hnodes : n ≠ m := by
      rintro rfl
      exact hkeys (Option.some.inj (hk.symm.trans hk'))
    exact ⟨along path ++ along path', _, _, hmem, hkeys, n, hn, m, hm, hk, hk', hid,
      checkedClusterTree_of_shared_id hn hm hnodes hid⟩
  · obtain ⟨hmem, hnid⟩ := (exists_clusterNode_iff catalog).mp ⟨n, hn, hk, rfl⟩
    obtain ⟨hmem', hmid⟩ := (exists_clusterNode_iff catalog).mp ⟨m, hm, hk', rfl⟩
    rw [hnid, hmid, NodeId.mk.injEq] at hid
    rcases (hread k k' hid).2 with heq | ⟨step, hstep, hhides⟩
    · exact heq
    · rcases List.mem_append.mp hstep with hmemk | hmemk
      · exact absurd hhides (hclear k hmem step hmemk)
      · exact absurd hhides (hclear k' hmem' step hmemk)

namespace Pools

def catalog : Catalog :=
  { types := [⟨⟨5⟩, "Datasource", "JBossAS", .service, none, true, none, []⟩,
      ⟨⟨7⟩, "Pool", "JBossAS", .service, none, true, none, []⟩]
    subCategories := [] }

def group : ResourceGroup := ⟨⟨3⟩, "Databases", none, .compatible, none, none, none⟩

def datasource : Cluster := ⟨⟨5⟩, "main", "main", 2, 2, [⟨⟨7⟩, "read", "read", 2, 2, []⟩]⟩

/-- A pool below a datasource, and a datasource that is named as if it were that pool. -/
def clusters : List Cluster := [datasource, ⟨⟨5⟩, "main:7:read", "main:7:read", 2, 2, []⟩]

def nested : ClusterKey := ⟨⟨3⟩, [(⟨5⟩, "main"), (⟨7⟩, "read")]⟩

def flat : ClusterKey := ⟨⟨3⟩, [(⟨5⟩, "main:7:read")]⟩

theorem keys_datasource : [datasource].flatMap (clusterKeys (.root group.id)) =
    [⟨⟨3⟩, [(⟨5⟩, "main")]⟩, nested] := by
  simp [datasource, clusterKeys, ClusterKey.child, ClusterKey.root, group, nested]

theorem hidesId : HidesId "main:7:read" :=
  ⟨"main".toList, ":read".toList, ⟨7⟩, by decide, by simp⟩

theorem clusters_share_id :
    ¬ Function.Injective ClusterKey.text ∧
      ∃ n ∈ clusterTree catalog group clusters, ∃ m ∈ clusterTree catalog group clusters,
        n.kind.clusterKey? = some nested ∧ m.kind.clusterKey? = some flat ∧ nested ≠ flat ∧
          nested.groupId = flat.groupId ∧ n.id = m.id := by
  have hne : nested ≠ flat := by decide
  have htext : nested.text = flat.text := by decide
  have hkeys : clusters.flatMap (clusterKeys (.root group.id)) =
      [⟨⟨3⟩, [(⟨5⟩, "main")]⟩, nested] ++ [flat] := by
    rw [clusters, ← List.singleton_append, List.flatMap_append, keys_datasource]
    simp [clusterKeys, ClusterKey.child, ClusterKey.root, group, flat]
  have hnested : nested ∈ clusters.flatMap (clusterKeys (.root group.id)) := by simp [hkeys]
  have hflat : flat ∈ clusters.flatMap (clusterKeys (.root group.id)) := by simp [hkeys]
  obtain ⟨n, hn, hnk, hnid⟩ := (exists_clusterNode_iff catalog).mpr ⟨hnested, rfl⟩
  obtain ⟨m, hm, hmk, hmid⟩ := (exists_clusterNode_iff catalog).mpr ⟨hflat, rfl⟩
  refine ⟨fun hinjective => hne (hinjective htext), n, hn, m, hm, hnk, hmk, hne, rfl, ?_⟩
  rw [hnid, hmid, htext]

theorem cluster_ids_collide_by_hidden_ids_pools :
    nested.text = flat.text ∧ (∃ step ∈ nested.path ++ flat.path, HidesId step.2) ∧
      HidesId "main:7:read" ∧
      (∃ clusters k k', (⟨5⟩, "main:7:read") ∈ k.path ∧ k ≠ k' ∧
        ∃ n ∈ clusterTree catalog group clusters, ∃ m ∈ clusterTree catalog group clusters,
          n.kind.clusterKey? = some k ∧ m.kind.clusterKey? = some k' ∧ n.id = m.id ∧
            ∃ fault, checkedClusterTree catalog group clusters = .error fault) ∧
      ∀ n ∈ clusterTree catalog group [datasource], ∀ m ∈ clusterTree catalog group [datasource],
        ∀ k k', n.kind.clusterKey? = some k → m.kind.clusterKey? = some k' → n.id = m.id →
          k = k' := by
  have htext : nested.text = flat.text := by decide
  have hclear : ∀ k ∈ [datasource].flatMap (clusterKeys (.root group.id)),
      ∀ step ∈ k.path, ¬ HidesId step.2 := by
    have hcolon : ∀ k ∈ [⟨⟨3⟩, [(⟨5⟩, "main")]⟩, nested], ∀ step ∈ k.path,
        ':' ∉ step.2.toList := by decide
    rw [keys_datasource]
    exact fun k hk step hstep hhides => hcolon k hk step hstep hhides.mem_colon
  obtain ⟨hcollide, hshared, hapart⟩ := cluster_ids_collide_by_hidden_ids catalog group
  exact ⟨htext, (hcollide nested flat htext).2.resolve_left (by decide), hidesId,
    hshared "main:7:read" hidesId ⟨5⟩, hapart [datasource] hclear⟩

end Pools

end Tree

end FleetConsole
