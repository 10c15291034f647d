import FleetConsole.Navigation.Detail
import FleetConsole.Proofs.Numerals
import FleetConsole.Proofs.Separators

/-! Paths of views, written and read again. A path of plain segments behind a hash sign comes apart
into them, whatever follows it behind a slash, and the path that names a target opens its view. -/
namespace FleetConsole.Navigation

namespace ViewPath

open Text

/-- A text that a path keeps as one segment, wherever it stands. -/
structure IsPlain (s : String) : Prop where
  nonempty : s.toList ≠ []
  chars : ∀ c ∈ s.toList, c ≠ '/' ∧ c ≠ '#' ∧ isBlank c = false

theorem isPlain_iff {s : String} :
    IsPlain s ↔ s.toList ≠ [] ∧ s.toList.all fun c => c ≠ '/' && c ≠ '#' && !isBlank c := by
  simp only [List.all_eq_true, Bool.and_eq_true, decide_eq_true_eq, Bool.not_eq_true', and_assoc]
  exact ⟨fun h => ⟨h.nonempty, h.chars⟩, fun h => ⟨h.1, h.2⟩⟩

-- The check looks at the characters of the text only; the quantifier by itself would be decided by
-- going through all characters there are.
instance (s : String) : Decidable (IsPlain s) := decidable_of_iff _ isPlain_iff.symm

theorem isPlain_idText (n : Int32) : IsPlain (idText n) := by
  refine ⟨toList_idText_ne_nil n, fun c hc => ?_⟩
  rcases isDigit_or_eq_sign_of_mem_idText hc with hdigit | rfl
  · refine ⟨?_, ?_, isBlank_of_isDigit hdigit⟩
    · rintro rfl
      cases hdigit
    · rintro rfl
      cases hdigit
  · decide

/-- A text that a path keeps as it is between two slashes. -/
structure IsSegment (s : String) : Prop where
  nonempty : s.toList ≠ []
  no_slash : '/' ∉ s.toList
  first : ∀ c ∈ s.toList.head?, isBlank c = false
  last : ∀ c ∈ s.toList.getLast?, isBlank c = false

theorem IsPlain.isSegment {s : String} (h : IsPlain s) : IsSegment s where
  nonempty := h.nonempty
  no_slash hmem := (h.chars _ hmem).1 rfl
  first c hc := (h.chars c (List.mem_of_head? hc)).2.2
  last c hc := (h.chars c (List.mem_of_getLast? hc)).2.2

/-- The segments between the slashes of a text. -/
def cut (cs : List Char) : List String :=
  (((cs.splitOn '/').map trimChars).filter (!·.isEmpty)).map String.ofList

theorem segmentsOf_eq_cut (token : String) :
    segmentsOf token = cut ((trimChars token.toList).dropWhile (· = '#')) := rfl

@[simp] theorem cut_slash (cs : List Char) : cut ('/' :: cs) = cut cs := by
  have hsplit := List.splitOn_append_cons_self_of_not_mem (List.not_mem_nil (a := '/')) cs
  rw [cut, ← List.nil_append ('/' :: cs), hsplit]
  simp [cut]

/-- Nothing follows, or something behind a slash. -/
def EndsSegment (tail : List Char) : Prop := ∀ c ∈ tail.head?, c = '/'

/-- What follows behind a slash is cut on its own. -/
theorem cut_append (cs : List Char) {tail : List Char} (htail : EndsSegment tail) :
    cut (cs ++ tail) = cut cs ++ cut tail := by
  cases tail with
  | nil => simp [cut]
  | cons c rest =>
    obtain rfl : c = '/' := htail c rfl
    rw [cut_slash, cut, List.splitOn_append_cons_self]
    simp [cut]

theorem cut_of_no_slash {cs : List Char} (h : '/' ∉ cs) :
    cut cs = if (trimChars cs).isEmpty then [] else [String.ofList (trimChars cs)] := by
  rw [cut, List.splitOn_eq_singleton h]
  by_cases hempty : trimChars cs = [] <;> simp [hempty]

theorem IsSegment.cut {s : String} (h : IsSegment s) : cut s.toList = [s] := by
  rw [cut_of_no_slash h.no_slash, trimChars_eq_self h.first h.last]
  simp [h.nonempty]

/-- What stands behind a segment that others follow. -/
def behind (rest : List String) : List Char :=
  if rest = [] then [] else '/' :: (joinWith "/" rest).toList

theorem endsSegment_behind (rest : List String) : EndsSegment (behind rest) := by
  rw [behind]
  split <;> simp [EndsSegment]

theorem cut_behind (rest : List String) : cut (behind rest) = cut (joinWith "/" rest).toList := by
  rw [behind]
  split
  · rename_i hnone
    rw [hnone]
    rfl
  · rw [cut_slash]

theorem toList_joinWith_cons (s : String) (rest : List String) :
    (joinWith "/" (s :: rest)).toList = s.toList ++ behind rest := by
  cases rest with
  | nil => simp [behind]
  | cons t rest => simp [behind, joinWith_cons_cons]

theorem cut_joinWith {segments : List String} (h : ∀ s ∈ segments, IsSegment s) :
    cut (joinWith "/" segments).toList = segments := by
  induction segments with
  | nil => rfl
  | cons s rest ih =>
    rw [List.forall_mem_cons] at h
    rw [toList_joinWith_cons, cut_append _ (endsSegment_behind rest), cut_behind, h.1.cut, ih h.2]
    rfl

theorem isBlank_of_getLast?_joinWith {segments : List String} (h : ∀ s ∈ segments, IsSegment s)
    {c : Char} (hc : c ∈ (joinWith "/" segments).toList.getLast?) : isBlank c = false := by
  induction segments with
  | nil => simp at hc
  | cons s rest ih =>
    rw [List.forall_mem_cons] at h
    rw [toList_joinWith_cons, behind] at hc
    split at hc
    · exact h.1.last c (by simpa using hc)
    · rw [List.getLast?_append_of_ne_nil _ (List.cons_ne_nil _ _), List.getLast?_cons,
        Option.mem_some_iff] at hc
      cases hlast : (joinWith "/" rest).toList.getLast? with
      | none =>
        rw [← hc, hlast]
        decide
      | some last =>
        refine ih h.2 ?_
        rw [← hc, hlast]
        rfl

theorem isSegment_of_mem_cut {cs : List Char} {s : String} (h : s ∈ cut cs) : IsSegment s := by
  simp only [cut, List.mem_map, List.mem_filter] at h
  obtain ⟨_, ⟨⟨piece, hpiece, rfl⟩, hkept⟩, rfl⟩ := h
  refine ⟨?_, ?_, ?_, ?_⟩ <;> rw [String.toList_ofList]
  · simpa using hkept
  · exact fun hslash => notMem_of_mem_splitOn hpiece ((trimChars_sublist piece).mem hslash)
  · exact fun c hc => isBlank_of_head?_trimChars hc
  · exact fun c hc => isBlank_of_getLast?_trimChars hc

theorem isSegment_of_mem_segmentsOf {token s : String} (h : s ∈ segmentsOf token) : IsSegment s :=
  isSegment_of_mem_cut h

/-- Segments that are written and read again lose the hash signs in front of the first one. -/
theorem segmentsOf_joinWith_cons {first : String} {rest : List String}
    (h : ∀ s ∈ first :: rest, IsSegment s) :
    segmentsOf (joinWith "/" (first :: rest)) =
      cut (first.toList.dropWhile (· = '#')) ++ rest := by
  have htrim : trimChars (joinWith "/" (first :: rest)).toList = first.toList ++ behind rest := by
    refine (trimChars_eq_self (fun c hc => ?_) fun c hc =>
      isBlank_of_getLast?_joinWith h hc).trans (toList_joinWith_cons first rest)
    have hfirst := h first List.mem_cons_self
    rw [toList_joinWith_cons, List.head?_append_of_ne_nil _ hfirst.nonempty] at hc
    exact hfirst.first c hc
  have hslash : (behind rest).dropWhile (· = '#') = behind rest :=
    dropWhile_eq_self fun c hc => by rw [endsSegment_behind rest c hc]; decide
  have hhash : (first.toList ++ behind rest).dropWhile (· = '#') =
      first.toList.dropWhile (· = '#') ++ behind rest := by
    rw [List.dropWhile_append]
    split
    · rename_i hnone
      rw [List.isEmpty_iff.mp hnone, hslash, List.nil_append]
    · rfl
  rw [segmentsOf_eq_cut, htrim, hhash, cut_append _ (endsSegment_behind rest), cut_behind,
    cut_joinWith fun s hs => h s (List.mem_cons_of_mem _ hs)]

theorem cut_dropWhile_hash {first : String} (h : IsSegment first)
    (hhash : '#' ∉ first.toList.head?) : cut (first.toList.dropWhile (· = '#')) = [first] := by
  have hkept : first.toList.dropWhile (· = '#') = first.toList :=
    dropWhile_eq_self fun c hc => decide_eq_false fun heq => hhash (heq ▸ hc)
  rw [hkept, h.cut]

theorem segmentsOf_joinWith {first : String} {rest : List String}
    (h : ∀ s ∈ first :: rest, IsSegment s) (hhash : '#' ∉ first.toList.head?) :
    segmentsOf (joinWith "/" (first :: rest)) = first :: rest := by
  rw [segmentsOf_joinWith_cons h, cut_dropWhile_hash (h first List.mem_cons_self) hhash]
  rfl

theorem EndsSegment.dropTrailing_isBlank {tail : List Char} (h : EndsSegment tail) :
    EndsSegment (dropTrailing isBlank tail) := by
  cases tail with
  | nil => exact h
  | cons c rest =>
    obtain rfl : c = '/' := h c rfl
    have hslash : ∀ c ∈ ['/'], isBlank c = false := List.forall_mem_singleton.mpr (by decide)
    rw [← List.singleton_append, dropTrailing_append hslash]
    simp [EndsSegment]

/-- A path behind a hash sign comes apart into its segments and those of what follows. -/
theorem segmentsOf_hash {segments : List String} (h : ∀ s ∈ segments, IsPlain s) {tail : String}
    (htail : EndsSegment tail.toList) :
    segmentsOf ("#" ++ joinWith "/" segments ++ tail) =
      segments ++ cut (dropTrailing isBlank tail.toList) := by
  have hchars : ∀ c ∈ (joinWith "/" segments).toList, c ≠ '#' ∧ isBlank c = false := by
    intro c hc
    rcases mem_joinWith hc with hslash | ⟨s, hs, hmem⟩
    · rw [List.mem_singleton.mp hslash]
      decide
    · exact ((h s hs).chars c hmem).2
  -- The hash sign and the segments have no blanks, so trimming takes none but those at the very end.
  have htrim : trimChars ("#" ++ joinWith "/" segments ++ tail).toList =
      '#' :: ((joinWith "/" segments).toList ++ dropTrailing isBlank tail.toList) := by
    have hfront : ∀ c ∈ '#' :: (joinWith "/" segments).toList, isBlank c = false :=
      List.forall_mem_cons.mpr ⟨by decide, fun c hc => (hchars c hc).2⟩
    have htoken : ("#" ++ joinWith "/" segments ++ tail).toList =
        '#' :: (joinWith "/" segments).toList ++ tail.toList := by
      simp
    rw [htoken, trimChars, List.cons_append, List.dropWhile_cons_of_neg (by decide),
      ← List.cons_append, dropTrailing_append hfront, List.cons_append]
  have hfirst : ∀ c ∈ ((joinWith "/" segments).toList ++ dropTrailing isBlank tail.toList).head?,
      c ≠ '#' := by
    intro c hc
    rw [List.head?_append, Option.mem_def, Option.or_eq_some_iff] at hc
    rcases hc with hbody | ⟨-, hrest⟩
    · exact (hchars c (List.mem_of_head? hbody)).1
    · rw [htail.dropTrailing_isBlank c hrest]
      decide
  have hkept := dropWhile_eq_self fun c hc => decide_eq_false (hfirst c hc)
  rw [segmentsOf_eq_cut, htrim, List.dropWhile_cons_of_pos (by decide), hkept,
    cut_append _ htail.dropTrailing_isBlank, cut_joinWith fun s hs => (h s hs).isSegment]

end ViewPath

section Reading

theorem Route.read_family (f : DetailFamily) {p : ViewPath} {rest : List String}
    (h : p.remaining = f.name :: rest) :
    (Route.read p).1.detailFamily? = some f ∧ (Route.read p).2.remaining = rest := by
  have hcurrent : p.current? = some f.name := by rw [p.current?_eq_head?, h, List.head?_cons]
  have hrest : p.advance.remaining = rest := by rw [p.remaining_advance, h, List.tail_cons]
  rw [Route.read, hcurrent]
  cases f <;> exact ⟨rfl, hrest⟩

namespace DetailFamily

/-- The segment is a numeral of the id. -/
theorem segmentId?_eq_some_iff {segment : String} {n : Int32} :
    segmentId? segment = some n ↔ Number.Denotes segment.toList n.toInt := by
  have hread (m : Int) : Number.Range.signed32.read segment = .ok m ↔
      Number.Denotes segment.toList m ∧ -2147483648 ≤ m ∧ m ≤ 2147483647 :=
    Number.Range.read_eq_ok_iff (by decide) (by decide)
  have hrange : -2147483648 ≤ n.toInt ∧ n.toInt ≤ 2147483647 :=
    ⟨n.le_toInt, Int.lt_add_one_iff.mp n.toInt_lt⟩
  constructor
  · intro h
    rw [segmentId?] at h
    cases hsegment : Number.Range.signed32.read segment with
    | error e => simp [hsegment, Except.toOption] at h
    | ok m =>
      obtain ⟨hdenotes, hleast, hgreatest⟩ := (hread m).mp hsegment
      obtain rfl : Int32.ofInt m = n := by simpa [hsegment, Except.toOption] using h
      rwa [Int32.toInt_ofInt_of_le hleast (Int.lt_add_one_iff.mpr hgreatest)]
  · intro hdenotes
    have hok := (hread n.toInt).mpr ⟨hdenotes, hrange⟩
    simp [segmentId?, hok, Except.toOption]

theorem idText_ne_hiddenSegment (f : DetailFamily) (n : Int32) : idText n ≠ f.hiddenSegment := by
  intro h
  refine notMem_idText (c := 'A') (by decide) (by decide) n ?_
  rw [h]
  cases f <;> decide

/-- The segments of an id, after the one for hidden groups if it is the id of one. -/
def idSegments (f : DetailFamily) (hidden : Bool) (n : Int32) : List String :=
  if hidden then [f.hiddenSegment, idText n] else [idText n]

/-- Where the segment of an id stands in the rest of a path, and what is behind it: it comes first, or
after the segment for hidden groups. -/
inductive IdAt (f : DetailFamily) : List String → Bool → String → List String → Prop
  | first {segment : String} {rest : List String} (h : segment ≠ f.hiddenSegment) :
      IdAt f (segment :: rest) false segment rest
  | hidden {segment : String} {rest : List String} :
      IdAt f (f.hiddenSegment :: segment :: rest) true segment rest

theorem idAt_idSegments (f : DetailFamily) (hidden : Bool) (n : Int32) (rest : List String) :
    f.IdAt (f.idSegments hidden n ++ rest) hidden (idText n) rest := by
  cases hidden with
  | false => exact .first (f.idText_ne_hiddenSegment n)
  | true => exact .hidden

/-- Behind the current segment stand the tab and the subtab, each if there is one. -/
theorem readTabs_fst (entity : DetailEntity) (p : ViewPath) :
    (readTabs entity p).1 = ⟨entity, p.remaining[1]?, p.remaining[2]?⟩ := by
  simp only [readTabs, ViewPath.current?_eq_head?, ViewPath.remaining_advance]
  rcases p.remaining with _ | ⟨first, _ | ⟨tab, _ | ⟨subtab, rest⟩⟩⟩ <;> rfl

theorem remaining_readTabs (entity : DetailEntity) (p : ViewPath) :
    (readTabs entity p).2.remaining = p.remaining.drop 3 := by
  simp only [readTabs, ViewPath.current?_eq_head?, ViewPath.remaining_advance]
  rcases hremaining : p.remaining with _ | ⟨first, _ | ⟨tab, _ | ⟨subtab, rest⟩⟩⟩ <;>
    simp [hremaining]

theorem readTarget_of_no_id {f : DetailFamily} {p : ViewPath}
    (h : p.remaining = [] ∨ p.remaining = [f.hiddenSegment]) :
    (f.readTarget p).1 = .ok none ∧ (f.readTarget p).2.remaining = [] := by
  rcases h with h | h <;> simp [readTarget, ViewPath.current?_eq_head?, h]

/-- An entity is read at its id, from a path that goes on behind it. -/
theorem readTarget_of_idAt {f : DetailFamily} {p : ViewPath} {hidden : Bool} {segment : String}
    {rest : List String} (h : f.IdAt p.remaining hidden segment rest) :
    ∃ q : ViewPath, q.remaining = segment :: rest ∧
      f.readTarget p = f.readEntity hidden segment q := by
  generalize hremaining : p.remaining = segments at h
  cases h with
  | first hsegment =>
    refine ⟨p, hremaining, ?_⟩
    simp [readTarget, ViewPath.current?_eq_head?, hremaining, hsegment]
  | hidden =>
    refine ⟨p.advance, by simp [hremaining], ?_⟩
    simp [readTarget, ViewPath.current?_eq_head?, hremaining]

theorem readEntity_of_denotes {f : DetailFamily} {hidden : Bool} {segment : String} {n : Int32}
    (h : Number.Denotes segment.toList n.toInt) {p : ViewPath} {rest : List String}
    (hremaining : p.remaining = segment :: rest) :
    (f.readEntity hidden segment p).1 = .ok (some ⟨f.entity hidden n, rest[0]?, rest[1]?⟩) ∧
      (f.readEntity hidden segment p).2.remaining = rest.drop 2 := by
  have htabs := readTabs_fst (f.entity hidden n) p
  have hrest := remaining_readTabs (f.entity hidden n) p
  rw [hremaining] at htabs hrest
  rw [readEntity, segmentId?_eq_some_iff.mpr h]
  exact ⟨congrArg (fun target => Except.ok (some target)) htabs, hrest⟩

/-- A family reads an entity of its own off its segments, and the tabs off what follows. -/
theorem readTarget_idSegments (f : DetailFamily) (hidden : Bool) (n : Int32) {p : ViewPath}
    {rest : List String} (h : p.remaining = f.idSegments hidden n ++ rest) :
    (f.readTarget p).1 = .ok (some ⟨f.entity hidden n, rest[0]?, rest[1]?⟩) ∧
      (f.readTarget p).2.remaining = rest.drop 2 := by
  obtain ⟨q, hq, hread⟩ := readTarget_of_idAt (h ▸ f.idAt_idSegments hidden n rest)
  rw [hread]
  exact readEntity_of_denotes (Number.denotes_toString n.toInt) hq

end DetailFamily

end Reading

namespace DetailEntity

/-- Hidden groups are those that do not count as viewed. -/
theorem entity_family (e : DetailEntity) : e.family.entity (!e.recordsView) e.rawId = e := by
  cases e <;> rfl

/-- The segments that name an entity. -/
def segments (e : DetailEntity) : List String :=
  e.family.name :: e.family.idSegments (!e.recordsView) e.rawId

theorem segments_ne_nil (e : DetailEntity) : e.segments ≠ [] := List.cons_ne_nil _ _

theorem text_eq_joinWith (e : DetailEntity) : e.text = Text.joinWith "/" e.segments := by
  cases e <;>
    simp [← String.toList_inj, text, basePath, segments, recordsView, family, DetailFamily.name,
      DetailFamily.idSegments, DetailFamily.hiddenSegment, Text.joinWith_cons_cons]

theorem isPlain_of_mem_segments {e : DetailEntity} {s : String} (h : s ∈ e.segments) :
    ViewPath.IsPlain s := by
  have hname (f : DetailFamily) : ViewPath.IsPlain f.name := by cases f <;> decide
  have hhidden (f : DetailFamily) : ViewPath.IsPlain f.hiddenSegment := by cases f <;> decide
  rw [segments, List.mem_cons, DetailFamily.idSegments] at h
  rcases h with rfl | hid
  · exact hname _
  · split at hid
    · rcases List.mem_pair.mp hid with rfl | rfl
      · exact hhidden _
      · exact ViewPath.isPlain_idText _
    · rw [List.mem_singleton.mp hid]
      exact ViewPath.isPlain_idText _

end DetailEntity

/-- The console, asked for a token, comes to the view of a target: the token leads to the family of
its entity, which reads the target off the rest of the path. -/
def Opens (token : String) (target : DetailTarget) : Prop :=
  (Route.read (.ofToken token)).1.detailFamily? = some target.entity.family ∧
    (target.entity.family.readTarget (Route.read (.ofToken token)).2).1 = .ok (some target)

theorem opens_of_segmentsOf {token : String} {e : DetailEntity} {rest : List String}
    (h : ViewPath.segmentsOf token = e.segments ++ rest) : Opens token ⟨e, rest[0]?, rest[1]?⟩ := by
  rw [← ViewPath.remaining_ofToken] at h
  obtain ⟨hfamily, hremaining⟩ := Route.read_family e.family h
  refine ⟨hfamily, ?_⟩
  have hread := (e.family.readTarget_idSegments (!e.recordsView) e.rawId hremaining).1
  rwa [e.entity_family] at hread

/-- The path of an entity opens its view. -/
theorem opens_entity (e : DetailEntity) : Opens ("#" ++ e.text) ⟨e, none, none⟩ := by
  have hplain : ∀ s ∈ e.segments, ViewPath.IsPlain s := fun s hs => e.isPlain_of_mem_segments hs
  have hends : ViewPath.EndsSegment "".toList := by simp [ViewPath.EndsSegment]
  have hsegments := ViewPath.segmentsOf_hash hplain hends
  rw [← e.text_eq_joinWith, String.append_empty] at hsegments
  exact opens_of_segmentsOf hsegments

/-- A path of a tab and a subtab that ends there or goes on behind a slash. -/
structure NamesSubtab (path tab subtab : String) : Prop where
  plainTab : ViewPath.IsPlain tab
  plainSubtab : ViewPath.IsPlain subtab
  exists_item : ∃ item, path = tab ++ "/" ++ subtab ++ item ∧ ViewPath.EndsSegment item.toList

theorem NamesSubtab.bare {path tab subtab : String} (hpath : path = tab ++ "/" ++ subtab)
    (htab : ViewPath.IsPlain tab) (hsubtab : ViewPath.IsPlain subtab) :
    NamesSubtab path tab subtab :=
  ⟨htab, hsubtab, "", by rw [hpath, String.append_empty], by simp [ViewPath.EndsSegment]⟩

theorem NamesSubtab.behind {front tab subtab : String} (hfront : front = tab ++ "/" ++ subtab ++ "/")
    (htab : ViewPath.IsPlain tab) (hsubtab : ViewPath.IsPlain subtab) (item : String) :
    NamesSubtab (front ++ item) tab subtab := by
  refine ⟨htab, hsubtab, "/" ++ item, ?_, by simp [ViewPath.EndsSegment]⟩
  rw [hfront, String.append_assoc]

theorem NamesSubtab.ne_empty {path tab subtab : String} (h : NamesSubtab path tab subtab) :
    path ≠ "" := by
  obtain ⟨item, rfl, -⟩ := h.exists_item
  intro hempty
  have hlist := congrArg String.toList hempty
  simp at hlist

/-- The path of an entity with a tab and a subtab opens its view there. -/
theorem opens_subtab (e : DetailEntity) {path tab subtab : String}
    (h : NamesSubtab path tab subtab) :
    Opens ("#" ++ (e.text ++ "/" ++ path)) ⟨e, some tab, some subtab⟩ := by
  obtain ⟨item, rfl, hitem⟩ := h.exists_item
  have hplain : ∀ s ∈ e.segments ++ [tab, subtab], ViewPath.IsPlain s := by
    intro s hs
    rcases List.mem_append.mp hs with hentity | htabs
    · exact e.isPlain_of_mem_segments hentity
    · rcases List.mem_pair.mp htabs with rfl | rfl
      · exact h.plainTab
      · exact h.plainSubtab
  have htext : "#" ++ (e.text ++ "/" ++ (tab ++ "/" ++ subtab ++ item)) =
      "#" ++ Text.joinWith "/" (e.segments ++ [tab, subtab]) ++ item := by
    rw [Text.joinWith_append e.segments_ne_nil (by simp), ← e.text_eq_joinWith]
    simp [Text.joinWith_cons_cons, String.append_assoc]
  have hsegments := ViewPath.segmentsOf_hash hplain hitem
  rw [← htext, List.append_assoc] at hsegments
  exact opens_of_segmentsOf hsegments

end FleetConsole.Navigation
