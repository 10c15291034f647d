import FleetConsole.Proofs.Numerals
import FleetConsole.Tree.Node

/-! What the ids of tree nodes stand for can be read off them: a number is a resource, and the text
of a folder names its type or sub-category and the resource it lies below. -/
namespace FleetConsole

theorem underscore_notMem_idText (n : Int32) : '_' ∉ (idText n).toList :=
  notMem_idText (by decide) (by decide) n

theorem ResourceId.text_injective {a b : ResourceId} (h : a.text = b.text) : a = b := by
  obtain ⟨a⟩ := a
  obtain ⟨b⟩ := b
  exact congrArg ResourceId.mk (idText_injective h)

/-- What stands before the first mark can be read off, with or without anything behind it. -/
theorem takeWhile_append_mark {mark : Char} {front rest : List Char} (hfront : mark ∉ front)
    (hrest : ∀ ch ∈ rest.head?, ch = mark) : (front ++ rest).takeWhile (· ≠ mark) = front := by
  have hkeep : ∀ ch ∈ front, decide (ch ≠ mark) = true := by
    intro ch hch
    exact decide_eq_true fun heq => hfront (heq ▸ hch)
  have hstop : rest.takeWhile (· ≠ mark) = [] := by
    cases rest with
    | nil => rfl
    | cons ch rest => simp [hrest ch rfl]
  rw [List.takeWhile_append_of_pos hkeep, hstop, List.append_nil]

/-- An underscore is where two texts meet if neither holds one. -/
theorem append_underscore_inj {front a b c d : String} (ha : '_' ∉ a.toList) (hb : '_' ∉ b.toList)
    (h : front ++ a ++ "_" ++ b = front ++ c ++ "_" ++ d) : a = c ∧ b = d := by
  have hlist := congrArg String.toList h
  simp only [String.toList_append, List.append_assoc, List.append_cancel_left_eq] at hlist
  have hmeet : a.toList ++ '_' :: b.toList = c.toList ++ '_' :: d.toList := by simpa using hlist
  obtain ⟨hac, -, hbd⟩ := (List.append_cons_inj_of_notMem ha hb).mp hmeet
  exact ⟨String.toList_inj.mp hac, String.toList_inj.mp hbd⟩

namespace Tree.NodeId

@[simp] theorem resource_inj {a b : ResourceId} : resource a = resource b ↔ a = b := by
  constructor
  · intro h
    exact ResourceId.text_injective (NodeId.mk.inj h)
  · exact congrArg resource

theorem underscore_notMem_resource (r : ResourceId) : '_' ∉ (resource r).text.toList :=
  underscore_notMem_idText r.val

@[simp] theorem autoGroup_ne_resource (t : TypeId) (p r : ResourceId) :
    autoGroup t p ≠ resource r := by
  intro h
  have hmem : '_' ∈ (autoGroup t p).text.toList := by simp [autoGroup]
  exact underscore_notMem_resource r (h ▸ hmem)

@[simp] theorem subCategory_ne_resource (s : SubCategoryId) (p r : ResourceId) :
    subCategory s p ≠ resource r := by
  intro h
  have hmem : '_' ∈ (subCategory s p).text.toList := by simp [subCategory]
  exact underscore_notMem_resource r (h ▸ hmem)

theorem anchor_of_autoGroup_eq {t u : TypeId} {p q : ResourceId}
    (h : autoGroup t p = autoGroup u q) : p = q :=
  ResourceId.text_injective (append_underscore_inj (underscore_notMem_idText _)
    (underscore_notMem_idText _) (NodeId.mk.inj h)).2

theorem anchor_of_subCategory_eq {s u : SubCategoryId} {p q : ResourceId}
    (h : subCategory s p = subCategory u q) : p = q :=
  ResourceId.text_injective (append_underscore_inj (underscore_notMem_idText _)
    (underscore_notMem_idText _) (NodeId.mk.inj h)).2

theorem autoGroup_ne_subCategory (t : TypeId) (s : SubCategoryId) (p q : ResourceId) :
    autoGroup t p ≠ subCategory s q := by
  intro h
  have htext := congrArg String.toList (NodeId.mk.inj h)
  simp at htext

/-- The ids of the folders between a resource and its children. -/
inductive IsFolderBelow (p : ResourceId) : NodeId → Prop
  | autoGroup (t : TypeId) : IsFolderBelow p (autoGroup t p)
  | subCategory (s : SubCategoryId) : IsFolderBelow p (subCategory s p)

namespace IsFolderBelow

theorem ne_resource {p : ResourceId} {id : NodeId} (h : IsFolderBelow p id) (r : ResourceId) :
    id ≠ resource r := by
  cases h with
  | autoGroup t => exact autoGroup_ne_resource t p r
  | subCategory s => exact subCategory_ne_resource s p r

/-- A folder lies below one resource only. -/
theorem anchor_unique {p q : ResourceId} {id : NodeId} (hp : IsFolderBelow p id)
    (hq : IsFolderBelow q id) : p = q := by
  generalize hid : id = other at hq
  cases hp with
  | autoGroup t =>
    cases hq with
    | autoGroup u => exact anchor_of_autoGroup_eq hid
    | subCategory u => exact absurd hid (autoGroup_ne_subCategory t u p q)
  | subCategory s =>
    cases hq with
    | autoGroup u => exact absurd hid.symm (autoGroup_ne_subCategory u s q p)
    | subCategory u => exact anchor_of_subCategory_eq hid

end IsFolderBelow

end Tree.NodeId

end FleetConsole
