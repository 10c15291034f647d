import Mathlib
import FleetConsole.Inventory.Demo
import FleetConsole.Proofs.Numerals
import FleetConsole.Proofs.Separators

/-! Ancestry texts, written and read again. The word between the parts of an entry and the word
between entries overlap, and names may begin and end with parts of either; still a chain of
ancestors is read back from its text if no name holds the one word, or the other between the
letters that stand around it. -/
namespace FleetConsole

namespace Text

/-- A word is not found where its first letter is missing. -/
theorem infix_of_infix_append {c : Char} {word front rest : List Char} (hfront : c ∉ front)
    (h : c :: word <:+: front ++ rest) : c :: word <:+: rest := by
  induction front with
  | nil => exact h
  | cons d front ih =>
    rw [List.mem_cons, not_or] at hfront
    rw [List.cons_append, List.infix_cons_iff, List.cons_prefix_cons] at h
    rcases h with ⟨heq, -⟩ | hrest
    · exact absurd heq hfront.1
    · exact ih hfront.2 hrest

/-- A word does not end where another letter stands. -/
theorem infix_of_infix_concat {c : Char} {word s : List Char} (hlast : word.getLast? ≠ some c)
    (h : word <:+: s ++ [c]) : word <:+: s := by
  rw [List.infix_concat_iff, List.suffix_concat_iff] at h
  rcases h with (rfl | ⟨t, rfl, -⟩) | hfound
  · exact List.nil_infix
  · simp at hlast
  · exact hfound

end Text

namespace Ancestor

/-- The ancestry text of a chain, nearest ancestor first. -/
def chainText (chain : List Ancestor) : String := Text.joinWith "_::_" (chain.map entry)

/-- The name can be told from the words around it in an ancestry text. -/
structure IsTold (name : String) : Prop where
  no_part : ¬"_:_".toList <:+: name.toList
  no_entry : ¬"_::_".toList <:+: '_' :: name.toList ++ ['_']

instance (name : String) : Decidable (IsTold name) :=
  decidable_of_iff
    (¬"_:_".toList <:+: name.toList ∧ ¬"_::_".toList <:+: '_' :: name.toList ++ ['_'])
    ⟨fun h => ⟨h.1, h.2⟩, fun h => ⟨h.no_part, h.no_entry⟩⟩

variable {a : Ancestor}

theorem toList_entry (a : Ancestor) :
    a.entry.toList = a.typeId.text.toList ++ ('_' :: ':' :: '_' ::
      (a.id.text.toList ++ ('_' :: ':' :: '_' :: a.name.toList))) := by
  simp [entry]

theorem notMem_idText_underscore (n : Int32) : '_' ∉ (idText n).toList :=
  notMem_idText (by decide) (by decide) n

theorem pieces_entry (h : IsTold a.name) :
    Text.pieces "_:_" a.entry = [a.typeId.text, a.id.text, a.name] := by
  have hid (n : Int32) : ¬"_:_".toList <:+: (idText n).toList ++ "_:_".toList.dropLast := by
    intro hfound
    have hrest := Text.infix_of_infix_append (notMem_idText_underscore n) hfound
    exact absurd hrest (by decide)
  have hentry : a.entry = a.typeId.text ++ "_:_" ++ (a.id.text ++ "_:_" ++ a.name) := by
    simp [entry, String.append_assoc]
  rw [hentry, Text.pieces_append (s := a.typeId.text) (by decide) (hid _),
    Text.pieces_append (s := a.id.text) (by decide) (hid _), Text.pieces_eq_singleton h.no_part]

/-- The word between entries does not begin before the end of an entry: not in the ids, where there
is no underscore, not at the words behind them, and not in the name. -/
theorem not_infix_entry (h : IsTold a.name) :
    ¬"_::_".toList <:+: a.entry.toList ++ "_::_".toList.dropLast := by
  have hword : "_::_".toList = ['_', ':', ':', '_'] := rfl
  intro hfound
  obtain ⟨first, digits, hid⟩ := List.exists_cons_of_ne_nil (toList_idText_ne_nil a.id.val)
  have hfirst : ':' ≠ first := by
    rintro rfl
    have hcolon : ':' ∉ (idText a.id.val).toList := notMem_idText (by decide) (by decide) _
    simp [hid] at hcolon
  have hnoId : '_' ∉ first :: digits := hid ▸ notMem_idText_underscore a.id.val
  rw [toList_entry, hword, List.append_assoc] at hfound
  have hbehindType := Text.infix_of_infix_append (notMem_idText_underscore _) hfound
  have hbehindWord : ['_', ':', ':', '_'] <:+: first :: digits ++ ('_' :: ':' :: '_' ::
      (a.name.toList ++ ['_', ':', ':'])) := by
    rw [ResourceId.text, hid] at hbehindType
    simpa [List.infix_cons_iff, hfirst] using hbehindType
  have hbehindId := Text.infix_of_infix_append hnoId hbehindWord
  have hname : ['_', ':', ':', '_'] <:+: '_' :: a.name.toList ++ ['_'] ++ [':'] ++ [':'] := by
    simpa [List.infix_cons_iff] using hbehindId
  have hdropped := Text.infix_of_infix_concat (by decide) hname
  exact h.no_entry (Text.infix_of_infix_concat (by decide) hdropped)

theorem pieces_chainText {chain : List Ancestor} (hchain : chain ≠ [])
    (hnames : ∀ a ∈ chain, IsTold a.name) :
    Text.pieces "_::_" (chainText chain) = chain.map entry := by
  refine Text.pieces_joinWith (by decide) (by simpa using hchain) fun s hs => ?_
  obtain ⟨a, ha, rfl⟩ := List.mem_map.mp hs
  exact not_infix_entry (hnames a ha)

theorem ancestryNames_chainText {chain : List Ancestor} (hchain : chain ≠ [])
    (hnames : ∀ a ∈ chain, IsTold a.name) :
    ancestryNames (chainText chain) = chain.map name := by
  rw [ancestryNames, pieces_chainText hchain hnames, List.filterMap_map]
  refine List.filterMap_eq_map_iff_forall_eq_some.mpr fun a ha => ?_
  rw [Function.comp_apply, pieces_entry (hnames a ha)]
  rfl

theorem ancestryText_chainText {chain : List Ancestor} (hchain : chain ≠ [])
    (hnames : ∀ a ∈ chain, IsTold a.name) :
    ancestryText (some (chainText chain)) = Text.joinWith " < " (chain.map name) := by
  have hread := ancestryNames_chainText hchain hnames
  have hne : chainText chain ≠ "" := by
    intro hempty
    have hnone : ancestryNames "" = [] := by decide
    rw [hempty, hnone] at hread
    exact hchain (by simpa using hread.symm)
  rw [ancestryText, if_neg hne, hread]

end Ancestor

namespace Resource

/-- A resource as the ancestry texts of those below it record it. -/
def asAncestor (r : Resource) : Ancestor := ⟨r.typeId, r.id, r.name⟩

end Resource

namespace Inventory.Demo

open Report

/-- Resources that are made one below the other, the lowest one first. -/
inductive Line : List Resource → Prop
  | nil : Line []
  | cons {above : List Resource} (h : Line above) (id : Int32) (name : String) (typeId : Int32)
      (availability : Availability) :
      Line (resource id name above.head? typeId availability :: above)

theorem ancestryBelow_of_line {r : Resource} {above : List Resource} (h : Line (r :: above)) :
    r.ancestryBelow = Ancestor.chainText ((r :: above).map Resource.asAncestor) := by
  generalize hline : r :: above = line at h
  induction h generalizing r above with
  | nil => cases hline
  | @cons above' habove id name typeId availability ih =>
    obtain ⟨rfl, rfl⟩ := List.cons.inj hline
    cases above with
    | nil => rfl
    | cons s above =>
      have hancestry : (resource id name (s :: above).head? typeId availability).ancestry =
          some s.ancestryBelow := rfl
      rw [Resource.ancestryBelow, hancestry, ih rfl]
      rfl

theorem ancestry_of_line {line : List Resource} (h : Line line) (hline : line ≠ []) (id : Int32)
    (name : String) (typeId : Int32) (availability : Availability) :
    (resource id name line.head? typeId availability).ancestry =
      some (Ancestor.chainText (line.map Resource.asAncestor)) := by
  obtain ⟨r, above, rfl⟩ := List.exists_cons_of_ne_nil hline
  rw [← ancestryBelow_of_line h]
  rfl

/-- Every chain of ancestors is that of resources made one below the other. -/
theorem exists_line (chain : List Ancestor) :
    ∃ line, Line line ∧ line.map Resource.asAncestor = chain := by
  induction chain with
  | nil => exact ⟨[], .nil, rfl⟩
  | cons a chain ih =>
    obtain ⟨line, hline, rfl⟩ := ih
    exact ⟨_, hline.cons a.id.val a.name a.typeId.val .unknown, rfl⟩

/-- A report shows the ancestors of a resource by their names, the nearest first, if each name can
be told from the words around it; and that is the ancestry it is made with. -/
theorem ancestry_names_read_back {chain : List Ancestor} (hchain : chain ≠ [])
    (hnames : ∀ a ∈ chain, Ancestor.IsTold a.name) :
    ancestryText (some (Ancestor.chainText chain)) =
        Text.joinWith " < " (chain.map Ancestor.name) ∧
      (∃ line, Line line ∧ line.map Resource.asAncestor = chain) ∧
      ∀ line, Line line → line.map Resource.asAncestor = chain →
        ∀ (id : Int32) (name : String) (typeId : Int32) (availability : Availability),
          let r := resource id name line.head? typeId availability
          r.ancestry = some (Ancestor.chainText chain) ∧
            (ResourceRef.ofResource r).ancestryText =
              Text.joinWith " < " (chain.map Ancestor.name) := by
  have htext := Ancestor.ancestryText_chainText hchain hnames
  refine ⟨htext, exists_line chain, ?_⟩
  rintro line hline rfl id name typeId availability r
  have hancestry : r.ancestry = some (Ancestor.chainText (line.map Resource.asAncestor)) :=
    ancestry_of_line hline (by simpa using hchain) id name typeId availability
  refine ⟨hancestry, ?_⟩
  rw [ResourceRef.ancestryText, ResourceRef.ofResource, hancestry, htext]

namespace Delimiters

/-- Names that begin or end like the words around them. -/
def chain : List Ancestor :=
  [⟨⟨-4⟩, ⟨12⟩, ":"⟩, ⟨⟨5⟩, ⟨-3⟩, "_:"⟩, ⟨⟨7⟩, ⟨8⟩, ":_x_:"⟩, ⟨⟨7⟩, ⟨9⟩, ""⟩, ⟨⟨0⟩, ⟨1⟩, ":__"⟩]

theorem ancestry_names_read_back_delimiters :
    Ancestor.chainText chain =
        "-4_:_12_:_:_::_5_:_-3_:__:_::_7_:_8_:_:_x_:_::_7_:_9_:__::_0_:_1_:_:__" ∧
      ancestryText (some (Ancestor.chainText chain)) = ": < _: < :_x_: <  < :__" ∧
      ∃ line : List Resource, line.map Resource.asAncestor = chain ∧
        (ResourceRef.ofResource (resource 3 "db" line.head? 2 .up)).ancestryText =
          ": < _: < :_x_: <  < :__" := by
  have hnames : ∀ a ∈ chain, Ancestor.IsTold a.name := by decide
  have hchain : chain ≠ [] := by decide
  have htext : Text.joinWith " < " (chain.map Ancestor.name) = ": < _: < :_x_: <  < :__" := by
    decide
  obtain ⟨hread, ⟨line, hline, hline_eq⟩, hrow⟩ := ancestry_names_read_back hchain hnames
  refine ⟨by decide, hread.trans htext, line, hline_eq, ?_⟩
  exact (hrow line hline hline_eq 3 "db" 2 .up).2.trans htext

end Delimiters

end Inventory.Demo

end FleetConsole
