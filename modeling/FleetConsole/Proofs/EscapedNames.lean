import FleetConsole.Proofs.ClusterForest
import FleetConsole.Proofs.Entities
import FleetConsole.Proofs.RowAccounting

/-! What users typed, as the navigation trees show it. A text shown holds no letter with a meaning
in markup except at the front of an entity, and the text typed can be read off it; so a tree of
resources or of clusters shows two texts alike only if they are the same. -/
namespace FleetConsole

namespace Text

/-- The entities that stand for letters with a meaning in markup. -/
def entities (a : Apostrophe) : List (List Char) :=
  ["&amp;".toList, "&lt;".toList, "&gt;".toList, "&quot;".toList, a.entity]

theorem markupChar_mem_entities (a : Apostrophe) {c : Char} (h : c ∈ marks) :
    markupChar a c ∈ entities a := by
  simp only [marks, List.mem_cons, List.not_mem_nil, or_false] at h
  rcases h with rfl | rfl | rfl | rfl | rfl <;> cases a <;> decide

theorem front_of_mem_entities {a : Apostrophe} {entity : List Char} (h : entity ∈ entities a) :
    ∃ name, entity = '&' :: name ∧ '&' ∉ name := by
  have hentities : ∀ e ∈ entities a, e.head? = some '&' ∧ '&' ∉ e.tail := by cases a <;> decide
  obtain ⟨hhead, htail⟩ := hentities entity h
  exact ⟨entity.tail, (List.cons_head?_tail hhead).symm, htail⟩

theorem markupChar_ne_nil (a : Apostrophe) (c : Char) : markupChar a c ≠ [] := by
  by_cases hc : c ∈ marks
  · obtain ⟨name, hname, -⟩ := front_of_mem_entities (markupChar_mem_entities a hc)
    simp [hname]
  · simp [markupChar_of_notMem hc]

/-- What is written for a letter has an ampersand at its front at most. -/
theorem markupChar_eq_append {a : Apostrophe} {c : Char} {front back : List Char}
    (h : markupChar a c = front ++ '&' :: back) : front = [] ∧ c ∈ marks := by
  by_cases hc : c ∈ marks
  · obtain ⟨name, hname, hamp⟩ := front_of_mem_entities (markupChar_mem_entities a hc)
    rw [hname] at h
    cases front with
    | nil => exact ⟨rfl, hc⟩
    | cons d front => simp [(List.cons.inj h).2] at hamp
  · rw [markupChar_of_notMem hc] at h
    cases front with
    | nil => simp [(List.cons.inj h).1, marks] at hc
    | cons d front => simp at h

theorem exists_entity_of_markupChars_eq {a : Apostrophe} {cs front back : List Char}
    (h : markupChars a cs = front ++ '&' :: back) :
    ∃ entity ∈ entities a, entity <+: '&' :: back := by
  induction cs generalizing front with
  | nil => simp at h
  | cons c cs ih =>
    -- The ampersand stands behind what is written for the first letter, or in it.
    rw [markupChars_cons] at h
    rcases List.append_eq_append_iff.mp h with ⟨front', -, hrest⟩ | ⟨written, hwritten, hback⟩
    · exact ih hrest
    · cases written with
      | nil => exact @ih [] hback.symm
      | cons d written =>
        obtain ⟨rfl, -⟩ := List.cons.inj hback
        obtain ⟨rfl, hc⟩ := markupChar_eq_append hwritten
        refine ⟨markupChar a c, markupChar_mem_entities a hc, ?_⟩
        rw [hback, hwritten]
        exact List.prefix_append _ _

section Reading

variable {a : Apostrophe} {cs ds : List Char}

theorem markupChar_of_entityLetter? {name : List Char} {letter : Char}
    (h : entityLetter? a (String.ofList name) = some letter) :
    markupChar a letter = '&' :: (name ++ [';']) := by
  have hname : name = (String.ofList name).toList := String.toList_ofList.symm
  rw [hname]
  generalize String.ofList name = text at h
  unfold entityLetter? at h
  split at h <;> cases h <;> rfl

/-- An ampersand that is read is at the front of what is written for a letter. -/
theorem exists_letter_of_unescape? {name : List Char}
    (h : unescape? a (some name) cs = some ds) :
    ∃ letter rest tail, '&' :: (name ++ cs) = markupChar a letter ++ rest ∧
      unescape? a none rest = some tail ∧ ds = letter :: tail := by
  induction cs generalizing name with
  | nil => simp [unescape?] at h
  | cons c cs ih =>
    rw [unescape?] at h
    split at h
    next hend =>
      obtain ⟨letter, hletter, htail⟩ := Option.bind_eq_some_iff.mp h
      obtain ⟨tail, hrest, rfl⟩ := Option.map_eq_some_iff.mp htail
      refine ⟨letter, cs, tail, ?_, hrest, rfl⟩
      rw [markupChar_of_entityLetter? hletter, hend]
      simp
    next =>
      obtain ⟨letter, rest, tail, hsplit, hrest⟩ := ih h
      refine ⟨letter, rest, tail, ?_, hrest⟩
      rw [← hsplit, List.append_assoc, List.singleton_append]

/-- A text is written in one way only, if no mark but the ampersand is to be left in it. -/
theorem markupChars_of_unescape? (hmarks : ∀ c ∈ cs, c ∈ marks → c = '&')
    (h : unescape? a none cs = some ds) : markupChars a ds = cs := by
  -- Reading goes on behind the whole entity, so the induction is on the length.
  induction hlength : cs.length using Nat.strong_induction_on generalizing cs ds with
  | _ length ih =>
    cases cs with
    | nil =>
      obtain rfl := Option.some.inj h
      rfl
    | cons c cs =>
      rw [unescape?] at h
      split at h
      next hc =>
        obtain ⟨letter, rest, tail, hsplit, hrest, rfl⟩ := exists_letter_of_unescape? h
        rw [List.nil_append, ← hc] at hsplit
        have hshorter := congrArg List.length hsplit
        rw [List.length_append] at hshorter
        have hpos := List.length_pos_of_ne_nil (markupChar_ne_nil a letter)
        have htail := ih rest.length (by omega)
          (fun d hd => hmarks d (by simp [hsplit, hd])) hrest rfl
        rw [markupChars_cons, htail, hsplit]
      next hc =>
        obtain ⟨tail, hrest, rfl⟩ := Option.map_eq_some_iff.mp h
        have hplain : c ∉ marks := fun hmark => hc (hmarks c List.mem_cons_self hmark)
        have htail := ih cs.length (by simp [← hlength])
          (fun d hd => hmarks d (List.mem_cons_of_mem _ hd)) hrest rfl
        rw [markupChars_cons, markupChar_of_notMem hplain, htail, List.singleton_append]

end Reading

/-- What a page may show for a text. -/
structure Encodes (shown source : String) : Prop where
  unmarked : ∀ c ∈ ['<', '>', '"', '\''], c ∉ shown.toList
  /-- Every ampersand is the front of an entity. -/
  entity : ∀ front back, shown.toList = front ++ '&' :: back →
    ∃ entity ∈ entities .numeric, entity <+: '&' :: back
  undone : unescape? .numeric none shown.toList = some source.toList

/-- There is one way to show a text. -/
theorem encodes_iff {shown source : String} :
    Encodes shown source ↔ shown = escapeHtml source := by
  constructor
  · intro h
    have hmarks : ∀ c ∈ shown.toList, c ∈ marks → c = '&' := by
      intro c hc hmark
      rcases List.mem_cons.mp hmark with hamp | hrest
      · exact hamp
      · exact absurd hc (h.unmarked c hrest)
    rw [escapeHtml, markupChars_of_unescape? hmarks h.undone, String.ofList_toList]
  · rintro rfl
    constructor
    case unmarked =>
      intro c hc
      have hamp : c ≠ '&' := fun h => absurd hc (by simp [h])
      rw [toList_escapeHtml]
      exact notMem_markupChars _ (List.mem_cons_of_mem _ hc) hamp _
    case entity =>
      intro front back h
      rw [toList_escapeHtml] at h
      exact exists_entity_of_markupChars_eq h
    case undone =>
      rw [toList_escapeHtml]
      exact unescape?_markupChars _ _

theorem escapeHtml_injective : Function.Injective escapeHtml := by
  intro s t h
  have hs : Encodes (escapeHtml s) s := encodes_iff.mpr rfl
  have ht : Encodes (escapeHtml s) t := encodes_iff.mpr h
  exact String.toList_injective (Option.some.inj (hs.undone.symm.trans ht.undone))

end Text

namespace Tree

/-- The node shows the texts of what it stands for. -/
structure Node.Renders (n : Node) (name : String) (description : Option String) : Prop where
  name : Text.Encodes n.name name
  description : Option.Rel Text.Encodes n.description description

namespace Node.Renders

variable {n m : Node} {s t : String} {d e : Option String}

theorem of_escapeHtml (hname : n.name = Text.escapeHtml s)
    (hdescription : n.description = d.map Text.escapeHtml) : n.Renders s d where
  name := Text.encodes_iff.mpr hname
  description := by
    rw [hdescription]
    cases d with
    | none => exact .none
    | some d => exact .some (Text.encodes_iff.mpr rfl)

theorem description_eq (h : n.Renders s d) : n.description = d.map Text.escapeHtml := by
  have hdescription := h.description
  generalize n.description = shown at hdescription
  cases hdescription with
  | none => rfl
  | some hencodes => exact congrArg some (Text.encodes_iff.mp hencodes)

theorem name_eq_iff (hn : n.Renders s d) (hm : m.Renders t e) : n.name = m.name ↔ s = t := by
  rw [Text.encodes_iff.mp hn.name, Text.encodes_iff.mp hm.name]
  exact Text.escapeHtml_injective.eq_iff

theorem description_eq_iff (hn : n.Renders s d) (hm : m.Renders t e) :
    n.description = m.description ↔ d = e := by
  rw [hn.description_eq, hm.description_eq]
  exact (Option.map_injective Text.escapeHtml_injective).eq_iff

end Node.Renders

/-- The name of a cluster, or what is said for one whose members disagree on a name. -/
def clusterTitle (catalog : Catalog) (c : Cluster) : String :=
  if c.name ≠ "..." then c.name
  else match catalog.type? c.typeId with
    | some t => "Group of " ++ t.name
    | none => "Group of type " ++ c.typeId.text

theorem clusterName_eq_clusterTitle (catalog : Catalog) (c : Cluster) :
    clusterName (catalog.type? c.typeId) c = clusterTitle catalog c := by
  rw [clusterName, clusterTitle]
  by_cases h : c.name = "..."
  · cases catalog.type? c.typeId with
    | none => simp [h, ← String.append_assoc]
    | some t => simp [h]
  · simp [h]

/-- The nodes of a group and its clusters show the texts of these, each at the place of its
address. -/
structure RendersForest (catalog : Catalog) (nodes : List Node) (g : ResourceGroup)
    (clusters : List Cluster) (place : List Nat → Nat) : Prop where
  group : ∃ n category, nodes[place []]? = some n ∧
    n.kind = .group g.id g.category g.typeId category ∧ n.Renders g.name g.description
  cluster : ∀ a k below i c, descend (.root g.id) clusters a = some (k, below) →
    below[i]? = some c → ∃ n, nodes[place (a ++ [i])]? = some n ∧
      n.kind.clusterKey? = some (childKey k c) ∧ n.Renders (clusterTitle catalog c) none
  injective : ∀ a b, (descend (.root g.id) clusters a).isSome →
    (descend (.root g.id) clusters b).isSome → place a = place b → a = b
  /-- All nodes but folders stand for something. -/
  onto : ∀ j n, nodes[j]? = some n → n.kind.isSynthetic = false →
    ∃ a, (descend (.root g.id) clusters a).isSome ∧ place a = j

theorem Shows.rendersForest {catalog : Catalog} {g : ResourceGroup} {clusters : List Cluster}
    {place : List Nat → Nat}
    (h : Shows catalog (clusterTree catalog g clusters) (.root g.id) clusters place) :
    RendersForest catalog (clusterTree catalog g clusters) g clusters place where
  group := by
    refine ⟨groupNode catalog g clusters, _, ?_, rfl, .of_escapeHtml rfl rfl⟩
    rw [h.root, clusterTree_eq, Branch.flatten_eq]
    rfl
  cluster a k below i c ha hc := by
    obtain ⟨parent, hnode⟩ := h.node a k below i c ha hc
    refine ⟨_, hnode, rfl, .of_escapeHtml ?_ rfl⟩
    exact congrArg Text.escapeHtml (clusterName_eq_clusterTitle catalog c)
  injective := h.injective
  onto := h.onto

/-- The nodes of resources show the texts of the rows, and all others are folders. -/
def RendersRows (nodes : List Node) (rows : List Resource) : Prop :=
  ∀ n ∈ nodes, n.kind.isSynthetic = false → ∃ r typeId category availability,
    n.kind = .resource r.id typeId category availability ∧
      rows.find? (·.id = r.id) = some r ∧ n.Renders r.name r.description

theorem rendersRows_build (s : Surroundings) (rows : List Resource) :
    RendersRows (s.build rows).nodes rows := by
  intro n hn hkind
  have hresource : n.kind.isResource = true := by
    by_contra hother
    have hfolder := Surroundings.unlocked_of_mem_build hn (Bool.eq_false_iff.mpr hother)
    rw [hfolder.1] at hkind
    cases hkind
  have hmem : n ∈ (s.build rows).nodes.filter (·.kind.isResource) :=
    List.mem_filter.mpr ⟨hn, hresource⟩
  -- The node has the number of its row.
  have hrows := Surroundings.resources_build (s := s) rows
  obtain ⟨i, hi, hget⟩ := List.mem_iff_getElem.mp hmem
  have hrow : i < (placedRows rows).length := by rwa [hrows.length_eq]
  have hshows := hrows.get hrow hi
  rw [List.get_eq_getElem, List.get_eq_getElem, hget] at hshows
  have hplaced := mem_placedRows_iff.mp (List.getElem_mem hrow)
  exact ⟨_, _, _, _, hshows.kind, hplaced.1, .of_escapeHtml hshows.name hshows.description⟩

/-- No text that users type can pass for markup in a tree: the nodes of resources, of a group and of
its clusters show the texts of these, which can be read off them, so that two nodes show a text
alike only if it is the same. -/
theorem typed_texts_recoverable :
    (∀ s : Surroundings, ∀ rows, RendersRows (s.build rows).nodes rows) ∧
      (∀ catalog g clusters, ∃ place,
        RendersForest catalog (clusterTree catalog g clusters) g clusters place) ∧
      ∀ (n m : Node) name name' description description',
        n.Renders name description → m.Renders name' description' →
          (n.name = m.name ↔ name = name') ∧
          (n.description = m.description ↔ description = description') := by
  refine ⟨rendersRows_build, fun catalog g clusters => ?_, fun n m _ _ _ _ hn hm => ?_⟩
  · obtain ⟨spot, hroot, hlevel⟩ := exists_spots (s := (groupBranch catalog g clusters).root)
      (groupBranch_children catalog g clusters)
    have hplaces : Places catalog g clusters spot := ⟨hroot, hlevel⟩
    exact ⟨_, hplaces.shows.rendersForest⟩
  · exact ⟨hn.name_eq_iff hm, hn.description_eq_iff hm⟩

end Tree
end FleetConsole
