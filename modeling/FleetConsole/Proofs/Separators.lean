import FleetConsole.Text.Split

/-! Texts cut at a separator and put together again. A piece between two separators does not hold
the separator, and pieces that do not hold it are what their join is cut into. A separator of more
than one character may also begin in a piece and end behind it, which has to be ruled out too. -/
namespace FleetConsole.Text

theorem notMem_of_mem_splitOn {sep : Char} {piece cs : List Char} (h : piece ∈ cs.splitOn sep) :
    sep ∉ piece := by
  induction cs generalizing piece with
  | nil => simp_all
  | cons c rest ih =>
    obtain ⟨first, others, hrest⟩ := List.exists_cons_of_ne_nil (List.splitOn_ne_nil sep rest)
    have hpieces : ∀ piece ∈ first :: others, sep ∉ piece := fun piece hmem => ih (hrest ▸ hmem)
    rw [List.splitOn_cons_eq_if_modifyHead, hrest] at h
    split at h
    · rcases List.mem_cons.mp h with rfl | hlater
      · exact List.not_mem_nil
      · exact hpieces piece hlater
    · rename_i hc
      rcases List.mem_cons.mp h with rfl | hlater
      · have hne : sep ≠ c := fun heq => hc (by rw [heq, beq_self_eq_true])
        exact List.not_mem_cons_of_ne_of_not_mem hne (hpieces first List.mem_cons_self)
      · exact hpieces piece (List.mem_cons_of_mem _ hlater)

theorem notMem_of_mem_fieldsOn {sep : Char} {s piece : String} (h : piece ∈ fieldsOn sep s) :
    sep ∉ piece.toList := by
  obtain ⟨chars, hchars, rfl⟩ := List.mem_map.mp h
  rw [String.toList_ofList]
  exact notMem_of_mem_splitOn hchars

theorem fieldsOn_ne_nil (sep : Char) (s : String) : fieldsOn sep s ≠ [] := by
  simp [fieldsOn, List.splitOn_ne_nil]

theorem fieldsOn_of_notMem {sep : Char} {s : String} (h : sep ∉ s.toList) :
    fieldsOn sep s = [s] := by
  rw [fieldsOn, List.splitOn_eq_singleton h]
  simp

theorem fieldsOn_append {sep : Char} {s word : String} (h : sep ∉ s.toList)
    (hword : word.toList = [sep]) (rest : String) :
    fieldsOn sep (s ++ word ++ rest) = s :: fieldsOn sep rest := by
  have htext : (s ++ word ++ rest).toList = s.toList ++ sep :: rest.toList := by
    simp [hword]
  rw [fieldsOn, htext, List.splitOn_append_cons_self_of_not_mem h]
  simp [fieldsOn]

theorem fieldsOn_joinWith {sep : Char} {word : String} (hword : word.toList = [sep])
    {pieces : List String} (hpieces : pieces ≠ []) (h : ∀ s ∈ pieces, sep ∉ s.toList) :
    fieldsOn sep (joinWith word pieces) = pieces := by
  induction pieces with
  | nil => exact absurd rfl hpieces
  | cons s rest ih =>
    rw [List.forall_mem_cons] at h
    cases rest with
    | nil => exact fieldsOn_of_notMem h.1
    | cons t rest =>
      rw [joinWith_cons_cons, fieldsOn_append h.1 hword, ih (List.cons_ne_nil _ _) h.2]

section Words

variable {sep s : List Char}

theorem splitOnWord_append_skip (sep cs rest : List Char) :
    splitOnWord sep (cs ++ rest) cs.length = splitOnWord sep rest 0 := by
  induction cs with
  | nil => rfl
  | cons c cs ih => exact ih

theorem splitOnWord_eq_singleton (h : ¬sep <:+: s) : splitOnWord sep s 0 = [s] := by
  induction s with
  | nil => rfl
  | cons c s ih =>
    rw [List.infix_cons_iff, not_or] at h
    rw [splitOnWord, if_neg (by simpa using h.1), ih h.2]
    rfl

/-- A piece in front of a word is cut off if the word does not begin before its end. -/
theorem splitOnWord_append (hsep : sep ≠ []) (h : ¬sep <:+: s ++ sep.dropLast)
    (rest : List Char) :
    splitOnWord sep (s ++ sep ++ rest) 0 = s :: splitOnWord sep rest 0 := by
  induction s with
  | nil =>
    obtain ⟨c, tail, rfl⟩ := List.exists_cons_of_ne_nil hsep
    have hprefix : (c :: tail).isPrefixOf (c :: (tail ++ rest)) = true := by simp
    rw [List.nil_append, List.cons_append, splitOnWord, if_pos hprefix, List.length_cons,
      Nat.add_sub_cancel, splitOnWord_append_skip]
  | cons c s ih =>
    rw [List.cons_append, List.infix_cons_iff, not_or] at h
    -- what follows the first letter of the word's last place does not matter
    have hnot : ¬sep <+: c :: (s ++ sep ++ rest) := by
      intro hprefix
      refine h.1 (List.prefix_of_prefix_length_le hprefix ?_ ?_)
      · have hlast : sep.dropLast <+: sep ++ rest :=
          (List.dropLast_prefix sep).trans (List.prefix_append sep rest)
        simpa using hlast
      · simp only [List.length_cons, List.length_append, List.length_dropLast]
        omega
    rw [List.cons_append, List.cons_append, splitOnWord, if_neg (by simpa using hnot), ih h.2]
    rfl

end Words

theorem pieces_eq_singleton {sep s : String} (h : ¬sep.toList <:+: s.toList) :
    pieces sep s = [s] := by
  rw [pieces, splitOnWord_eq_singleton h]
  simp

theorem pieces_append {sep s : String} (hsep : sep.toList ≠ [])
    (h : ¬sep.toList <:+: s.toList ++ sep.toList.dropLast) (rest : String) :
    pieces sep (s ++ sep ++ rest) = s :: pieces sep rest := by
  rw [pieces, String.toList_append, String.toList_append, splitOnWord_append hsep h]
  simp [pieces]

theorem pieces_joinWith {sep : String} (hsep : sep.toList ≠ []) {parts : List String}
    (hparts : parts ≠ []) (h : ∀ s ∈ parts, ¬sep.toList <:+: s.toList ++ sep.toList.dropLast) :
    pieces sep (joinWith sep parts) = parts := by
  induction parts with
  | nil => exact absurd rfl hparts
  | cons s rest ih =>
    rw [List.forall_mem_cons] at h
    cases rest with
    | nil =>
      exact pieces_eq_singleton fun hfound =>
        h.1 (hfound.trans (List.prefix_append _ _).isInfix)
    | cons t rest =>
      rw [joinWith_cons_cons, pieces_append hsep h.1, ih (List.cons_ne_nil _ _) h.2]

end FleetConsole.Text
