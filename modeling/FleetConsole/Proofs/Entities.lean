import Mathlib
import FleetConsole.Text.Markup

/-! Text made safe for markup, read again. Undoing the entities gives back every text, and of the
letters with a meaning in markup only the ampersand is left in it, at the front of an entity. -/
namespace FleetConsole.Text

/-- The letters that are written as entities. -/
def marks : List Char := ['&', '<', '>', '"', '\'']

theorem markupChar_of_notMem {c : Char} (h : c ∉ marks) (a : Apostrophe) :
    markupChar a c = [c] := by
  simp only [marks, List.mem_cons, List.not_mem_nil, or_false, not_or] at h
  simp [markupChar, h]

/-- The letter that the entity of a name stands for. -/
def entityLetter? : Apostrophe → String → Option Char
  | _, "amp" => some '&'
  | _, "lt" => some '<'
  | _, "gt" => some '>'
  | _, "quot" => some '"'
  | .numeric, "#39" => some '\''
  | .named, "apos" => some '\''
  | _, _ => none

/-- Undoes the entities. Behind an ampersand `name` holds the letters up to the semicolon. -/
def unescape? (a : Apostrophe) : (name : Option (List Char)) → List Char → Option (List Char)
  | none, [] => some []
  | some _, [] => none
  | none, c :: cs =>
    if c = '&' then unescape? a (some []) cs else (unescape? a none cs).map (c :: ·)
  | some name, c :: cs =>
    if c = ';' then (entityLetter? a (String.ofList name)).bind fun letter =>
      (unescape? a none cs).map (letter :: ·)
    else unescape? a (some (name ++ [c])) cs

/-- A letter is read off what is written for it, whatever follows. -/
theorem unescape?_markupChar (a : Apostrophe) (c : Char) (cs : List Char) :
    unescape? a none (markupChar a c ++ cs) = (unescape? a none cs).map (c :: ·) := by
  by_cases h : c ∈ marks
  · simp only [marks, List.mem_cons, List.not_mem_nil, or_false] at h
    rcases h with rfl | rfl | rfl | rfl | rfl <;> cases a <;> rfl
  · have hplain : c ≠ '&' := fun hc => h (hc ▸ List.mem_cons_self)
    rw [markupChar_of_notMem h, List.singleton_append, unescape?, if_neg hplain]

theorem unescape?_markupChars (a : Apostrophe) (cs : List Char) :
    unescape? a none (markupChars a cs) = some cs := by
  induction cs with
  | nil => rfl
  | cons c cs ih => rw [markupChars_cons, unescape?_markupChar, ih, Option.map_some]

theorem notMem_markupChars (a : Apostrophe) {c : Char} (h : c ∈ marks) (hc : c ≠ '&')
    (cs : List Char) : c ∉ markupChars a cs := by
  have hentities : marks.all fun d => (markupChar a d).all fun e => e = '&' || e ∉ marks := by
    cases a <;> decide
  intro hmem
  obtain ⟨d, -, hd⟩ := List.mem_flatMap.mp hmem
  by_cases hmark : d ∈ marks
  · have hletter := List.all_eq_true.mp (List.all_eq_true.mp hentities d hmark) c hd
    simp [hc, h] at hletter
  · rw [markupChar_of_notMem hmark, List.mem_singleton] at hd
    exact hmark (hd ▸ h)

/-- What stands for an entity of its own is read as such, and an ampersand without a name is not. -/
example : unescape? .named none "&amp;lt; &apos;".toList = some "&lt; '".toList ∧
    unescape? .named none "&#39;".toList = none ∧ unescape? .named none "a & b".toList = none := by
  decide

end FleetConsole.Text
