/-! Text cut at a separator. A single character cuts by `List.splitOn`; here are the cut at a
longer separator and the joins that undo both. -/
namespace FleetConsole.Text

/-- Cuts at every occurrence of `sep`, leftmost first and without overlap; `skip` counts the
characters of an occurrence still to be passed over. -/
def splitOnWord (sep : List Char) : List Char → Nat → List (List Char)
  | [], _ => [[]]
  | _ :: cs, skip + 1 => splitOnWord sep cs skip
  | c :: cs, 0 =>
    if sep.isPrefixOf (c :: cs) then [] :: splitOnWord sep cs (sep.length - 1)
    else (splitOnWord sep cs 0).modifyHead (c :: ·)

@[simp] theorem splitOnWord_nil (sep : List Char) (skip : Nat) :
    splitOnWord sep [] skip = [[]] := by
  cases skip <;> rfl

/-- The pieces of a text between occurrences of a word that is not empty. -/
def pieces (sep : String) (s : String) : List String :=
  (splitOnWord sep.toList s.toList 0).map String.ofList

/-- The pieces of a text between occurrences of one character. -/
def fieldsOn (sep : Char) (s : String) : List String :=
  (s.toList.splitOn sep).map String.ofList

/-- The texts one after the other with `sep` between neighbours. -/
def joinWith (sep : String) : List String → String
  | [] => ""
  | [s] => s
  | s :: t :: rest => s ++ sep ++ joinWith sep (t :: rest)

@[simp] theorem joinWith_nil (sep : String) : joinWith sep [] = "" := rfl

@[simp] theorem joinWith_singleton (sep s : String) : joinWith sep [s] = s := rfl

theorem joinWith_cons_cons (sep s t : String) (rest : List String) :
    joinWith sep (s :: t :: rest) = s ++ sep ++ joinWith sep (t :: rest) := rfl

theorem joinWith_append {sep : String} {front rest : List String} (hfront : front ≠ [])
    (hrest : rest ≠ []) :
    joinWith sep (front ++ rest) = joinWith sep front ++ sep ++ joinWith sep rest := by
  induction front with
  | nil => exact absurd rfl hfront
  | cons s front ih =>
    cases front with
    | nil =>
      obtain ⟨t, rest, rfl⟩ := List.exists_cons_of_ne_nil hrest
      rfl
    | cons t front =>
      rw [List.cons_append, List.cons_append, joinWith_cons_cons, joinWith_cons_cons,
        ← List.cons_append, ih (List.cons_ne_nil _ _)]
      simp [String.append_assoc]

theorem mem_joinWith {sep : String} {pieces : List String} {c : Char}
    (h : c ∈ (joinWith sep pieces).toList) : c ∈ sep.toList ∨ ∃ s ∈ pieces, c ∈ s.toList := by
  induction pieces with
  | nil => simp at h
  | cons s rest ih =>
    cases rest with
    | nil => exact .inr ⟨s, List.mem_cons_self, h⟩
    | cons t rest =>
      rw [joinWith_cons_cons, String.toList_append, String.toList_append, List.mem_append,
        List.mem_append] at h
      rcases h with (hfirst | hsep) | hrest
      · exact .inr ⟨s, List.mem_cons_self, hfirst⟩
      · exact .inl hsep
      · exact (ih hrest).imp_right fun ⟨u, hu, hc⟩ => ⟨u, List.mem_cons_of_mem _ hu, hc⟩

end FleetConsole.Text
