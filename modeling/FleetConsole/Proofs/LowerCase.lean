import Mathlib
import FleetConsole.Text.Case

/-! A part of a text in lower case. All letters but the capital sigma become what they become in the
whole text. A sigma looks for letters around it, and the part has lost those beyond its ends, so that
part and text agree for certain only where the part itself tells whether a word ends. -/
namespace FleetConsole.Text

/-- The first character that a word's case does not look through. -/
def nearest (cs : List Char) : Option Char := (cs.dropWhile isCaseIgnorable).head?

/-- Whether a sigma ends its word. What stands before it is held nearest first. -/
def endsWord (before after : List Char) : Bool := meetsCased before && !meetsCased after

/-- What a character becomes between two texts. -/
def lowerAt (before : List Char) (c : Char) (after : List Char) : List Char :=
  if c = 'Σ' then [if endsWord before after then 'ς' else 'σ']
  else if c = 'İ' then ['i', '\u0307']
  else [lowerChar c]

/-- What a part of a text becomes between the texts before and after it. -/
def lowerPart (before after : List Char) : List Char → List Char
  | [] => []
  | c :: cs => lowerAt before c (cs ++ after) ++ lowerPart (c :: before) after cs

/-- The text around a sigma settles whether it ends its word, whatever else there may be further out:
a letter follows, or it is known that none stands before it, or that one does and none follows. -/
def Settled (before after : List Char) : Prop :=
  meetsCased after = true ∨ (∃ c ∈ nearest before, isCased c = false) ∨
    meetsCased before = true ∧ ∃ c ∈ nearest after, isCased c = false

/-- Every capital sigma of a text is settled by the text itself. -/
def SettlesSigmas (cs : List Char) : Prop :=
  ∀ before after, cs = before ++ 'Σ' :: after → Settled before.reverse after

section Nearest

theorem nearest_append (cs ds : List Char) : nearest (cs ++ ds) = (nearest cs).or (nearest ds) := by
  unfold nearest
  rw [List.dropWhile_append]
  cases h : cs.dropWhile isCaseIgnorable <;> simp

theorem nearest_eq_none_iff {cs : List Char} :
    nearest cs = none ↔ ∀ c ∈ cs, isCaseIgnorable c = true := by
  rw [nearest, List.head?_eq_none_iff, List.dropWhile_eq_nil_iff]

theorem meetsCased_eq (cs : List Char) : meetsCased cs = (nearest cs).any isCased := by
  unfold meetsCased nearest
  cases cs.dropWhile isCaseIgnorable <;> rfl

theorem nearest_sigma (cs : List Char) : nearest ('Σ' :: cs) = some 'Σ' := by
  have hseen : isCaseIgnorable 'Σ' = false := by decide +kernel
  simp [nearest, hseen]

theorem nearest_letter (cs : List Char) : nearest ('A' :: cs) = some 'A' := by
  have hseen : isCaseIgnorable 'A' = false := by decide +kernel
  simp [nearest, hseen]

theorem isCased_letter : isCased 'A' = true := by
  decide +kernel

/-- Nothing is seen beyond a sigma. -/
theorem nearest_append_sigma (cs ds es : List Char) :
    nearest (cs ++ 'Σ' :: ds) = nearest (cs ++ 'Σ' :: es) := by
  rw [nearest_append, nearest_append, nearest_sigma, nearest_sigma]

theorem not_sigma_mem {cs : List Char} (h : nearest cs = none) : 'Σ' ∉ cs := by
  intro hmem
  have hseen : isCaseIgnorable 'Σ' = false := by decide +kernel
  simp [nearest_eq_none_iff.mp h 'Σ' hmem] at hseen

theorem endsWord_of_settled {before after : List Char} (h : Settled before after)
    (front back : List Char) :
    endsWord (before ++ front) (after ++ back) = endsWord before after := by
  unfold Settled at h
  simp only [endsWord, meetsCased_eq, nearest_append] at h ⊢
  -- Of either side only the nearest character counts, if there is one.
  generalize nearest before = b at h ⊢
  generalize nearest after = a at h ⊢
  cases b <;> cases a <;> grind

/-- A letter put on one side or the other decides what was not settled. -/
theorem letter_of_not_settled {before after : List Char} (h : ¬Settled before after) :
    (nearest before = none ∧ meetsCased after = false) ∨
      (meetsCased before = true ∧ nearest after = none) := by
  unfold Settled at h
  simp only [meetsCased_eq] at h ⊢
  generalize nearest before = b at h ⊢
  generalize nearest after = a at h ⊢
  cases b <;> cases a <;> grind

end Nearest

section Parts

theorem lowerFrom_eq (before cs : List Char) : lowerFrom before cs = lowerPart before [] cs := by
  induction cs generalizing before with
  | nil => rfl
  | cons c cs ih =>
    rw [lowerPart, ← ih, List.append_nil]
    rfl

theorem lowerPart_append (before after cs ds : List Char) :
    lowerPart before after (cs ++ ds) =
      lowerPart before (ds ++ after) cs ++ lowerPart (cs.reverse ++ before) after ds := by
  induction cs generalizing before with
  | nil => rfl
  | cons c cs ih =>
    simp [lowerPart, ih]

/-- Between other texts a part becomes the same if its sigmas end words where they did before. -/
theorem lowerPart_congr {before before' after after' cs : List Char}
    (h : ∀ front back, cs = front ++ 'Σ' :: back →
      endsWord (front.reverse ++ before) (back ++ after) =
        endsWord (front.reverse ++ before') (back ++ after')) :
    lowerPart before after cs = lowerPart before' after' cs := by
  induction cs generalizing before before' with
  | nil => rfl
  | cons c cs ih =>
    have hfirst : lowerAt before c (cs ++ after) = lowerAt before' c (cs ++ after') := by
      by_cases hc : c = 'Σ'
      · subst hc
        have hends := h [] cs rfl
        simp only [List.reverse_nil, List.nil_append] at hends
        rw [lowerAt, lowerAt, hends]
      · simp only [lowerAt, if_neg hc]
    rw [lowerPart, lowerPart, hfirst, ih]
    intro front back hsplit
    have hends := h (c :: front) back (by rw [hsplit, List.cons_append])
    simpa using hends

theorem lowerPart_of_no_sigma {before before' after after' cs : List Char} (h : 'Σ' ∉ cs) :
    lowerPart before after cs = lowerPart before' after' cs := by
  refine lowerPart_congr fun front back hsplit => absurd ?_ h
  simp [hsplit]

/-- An occurrence of a text whose sigmas end words just where they do in the text alone. -/
theorem lowerFrom_infix {cs front back : List Char}
    (h : ∀ before after, cs = before ++ 'Σ' :: after →
      endsWord (before.reverse ++ front.reverse) (after ++ back) = endsWord before.reverse after) :
    lowerFrom [] cs <:+: lowerFrom [] (front ++ cs ++ back) := by
  have hpart : lowerPart front.reverse back cs = lowerPart [] [] cs := by
    refine lowerPart_congr fun before after hsplit => ?_
    simpa using h before after hsplit
  rw [lowerFrom_eq, lowerFrom_eq, lowerPart_append, lowerPart_append, List.append_nil,
    List.append_nil, hpart]
  exact ⟨_, _, rfl⟩

end Parts

section Sigma

variable {before after : List Char}

/-- A sigma splits what a text becomes, and what is on either side of it does not look beyond. -/
theorem lowerPart_sigma (front back before after : List Char) :
    lowerPart front back (before ++ 'Σ' :: after) =
      lowerPart front ['Σ'] before ++
        (if endsWord (before.reverse ++ front) (after ++ back) then 'ς' else 'σ') ::
          lowerPart ['Σ'] back after := by
  have hbefore : lowerPart front (('Σ' :: after) ++ back) before = lowerPart front ['Σ'] before := by
    refine lowerPart_congr fun cs ds _ => ?_
    simp only [endsWord, meetsCased_eq, List.cons_append]
    rw [nearest_append_sigma ds (after ++ back) []]
  have hafter : lowerPart ('Σ' :: (before.reverse ++ front)) back after =
      lowerPart ['Σ'] back after := by
    refine lowerPart_congr fun cs ds _ => ?_
    simp only [endsWord, meetsCased_eq]
    rw [nearest_append_sigma cs.reverse (before.reverse ++ front) []]
  rw [lowerPart_append, lowerPart, hbefore, hafter]
  simp [lowerAt]

/-- A letter in front lets a sigma end its word that ended none before. -/
theorem not_lowerFrom_infix_front (hbefore : nearest before.reverse = none)
    (hafter : meetsCased after = false) :
    ¬lowerFrom [] (before ++ 'Σ' :: after) <:+: lowerFrom [] ('A' :: (before ++ 'Σ' :: after)) := by
  have hfront : 'Σ' ∉ before := fun h => not_sigma_mem hbefore (List.mem_reverse.mpr h)
  have halone : lowerFrom [] (before ++ 'Σ' :: after) =
      lowerPart [] ['Σ'] before ++ 'σ' :: lowerPart ['Σ'] [] after := by
    rw [lowerFrom_eq, lowerPart_sigma]
    simp [endsWord, meetsCased_eq, hbefore]
  have htext : lowerFrom [] ('A' :: (before ++ 'Σ' :: after)) =
      'a' :: (lowerPart [] ['Σ'] before ++ 'ς' :: lowerPart ['Σ'] [] after) := by
    have hends : endsWord (before.reverse ++ ['A']) (after ++ []) = true := by
      rw [List.append_nil, endsWord, hafter, meetsCased_eq, nearest_append, hbefore]
      simp [nearest_letter, isCased_letter]
    have hsame : lowerPart ['A'] ['Σ'] before = lowerPart [] ['Σ'] before :=
      lowerPart_of_no_sigma hfront
    rw [lowerFrom_eq, lowerPart, lowerPart_sigma, hends, hsame]
    rfl
  intro h
  rw [halone, htext] at h
  have hcount := h.sublist.count_le 'σ'
  simp at hcount

/-- A letter behind keeps a sigma from ending its word. -/
theorem not_lowerFrom_infix_back (hbefore : meetsCased before.reverse = true)
    (hafter : nearest after = none) :
    ¬lowerFrom [] (before ++ 'Σ' :: after) <:+: lowerFrom [] ((before ++ 'Σ' :: after) ++ ['A']) := by
  have hback : 'Σ' ∉ after := not_sigma_mem hafter
  have halone : lowerFrom [] (before ++ 'Σ' :: after) =
      lowerPart [] ['Σ'] before ++ 'ς' :: lowerPart ['Σ'] [] after := by
    rw [lowerFrom_eq, lowerPart_sigma]
    simp [endsWord, hbefore, meetsCased_eq after, hafter]
  have htext : lowerFrom [] ((before ++ 'Σ' :: after) ++ ['A']) =
      lowerPart [] ['Σ'] before ++ 'σ' :: lowerPart ['Σ'] [] after ++ ['a'] := by
    have hends : endsWord (before.reverse ++ []) (after ++ (['A'] ++ [])) = false := by
      rw [List.append_nil, endsWord, meetsCased_eq (after ++ _), nearest_append, hafter]
      simp [nearest_letter, isCased_letter]
    have hsame : lowerPart ['Σ'] (['A'] ++ []) after = lowerPart ['Σ'] [] after :=
      lowerPart_of_no_sigma hback
    rw [lowerFrom_eq, lowerPart_append, lowerPart_sigma, hends, hsame]
    rfl
  intro h
  rw [halone, htext] at h
  have hcount := h.sublist.count_le 'ς'
  simp at hcount

end Sigma

/-- The texts that are found in lower case wherever they are found as they stand. -/
theorem settlesSigmas_iff {cs : List Char} :
    SettlesSigmas cs ↔ ∀ text, cs <:+: text → lowerFrom [] cs <:+: lowerFrom [] text := by
  constructor
  · rintro h text ⟨front, back, rfl⟩
    exact lowerFrom_infix fun before after hsplit =>
      endsWord_of_settled (h before after hsplit) front.reverse back
  · intro h before after hsplit
    subst hsplit
    by_contra hnot
    -- What is not settled is decided against the part by a letter at the side that is open.
    rcases letter_of_not_settled hnot with ⟨hbefore, hafter⟩ | ⟨hbefore, hafter⟩
    · exact not_lowerFrom_infix_front hbefore hafter (h _ (List.suffix_cons _ _).isInfix)
    · exact not_lowerFrom_infix_back hbefore hafter (h _ (List.prefix_append _ _).isInfix)

end FleetConsole.Text
