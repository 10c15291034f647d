import Mathlib
import FleetConsole.Id

/-! Numerals, and ids written as decimal text. Within a range, the texts that are read are the
numerals of its numbers; the text of an id tells the id, and has no characters but digits and a
sign. -/
namespace FleetConsole

namespace Number

theorem toNat_sub_zero_eq_digitValue {c : Char} (h : c.isDigit) :
    ((c.toNat - '0'.toNat : Nat) : Int) = digitValue c := by
  have hlow : '0'.toNat ≤ c.toNat := (Char.isDigit_iff_toNat.mp h).1
  rw [digitValue, Nat.cast_sub hlow]
  rfl

theorem le_ofDigitChars (cs : List Char) (total : Nat) : total ≤ Nat.ofDigitChars 10 cs total := by
  induction cs generalizing total with
  | nil => exact Nat.le_refl _
  | cons c rest ih =>
    rw [Nat.ofDigitChars_cons]
    exact Nat.le_trans (by omega) (ih _)

/-- Totals only grow, so digits are read exactly if their number is within the range. -/
theorem readUp_eq_ok_iff {greatest : Int} {cs : List Char} {total : Nat} {n : Int}
    (htotal : (total : Int) ≤ greatest) :
    readUp greatest total cs = .ok n ↔
      (∀ c ∈ cs, c.isDigit) ∧ n = Nat.ofDigitChars 10 cs total ∧ n ≤ greatest := by
  induction cs generalizing total with
  | nil =>
    simp only [readUp, Except.ok.injEq, List.not_mem_nil, false_implies, implies_true, true_and,
      Nat.ofDigitChars_nil]
    omega
  | cons c rest ih =>
    rw [readUp, List.forall_mem_cons]
    by_cases hdigit : c.isDigit
    · have hnext : (total : Int) * 10 + digitValue c =
          (10 * total + (c.toNat - '0'.toNat) : Nat) := by
        rw [← toNat_sub_zero_eq_digitValue hdigit]
        omega
      rw [if_neg (by simp [hdigit]), hnext, Nat.ofDigitChars_cons]
      split
      · have hgrow := le_ofDigitChars rest (10 * total + (c.toNat - '0'.toNat))
        simp only [reduceCtorEq, false_iff]
        omega
      · rw [ih (by omega)]
        simp [hdigit]
    · simp [hdigit]

/-- Reading below zero is reading above it with the signs turned round. -/
theorem readDown_eq_ok_iff {least total n : Int} {cs : List Char} :
    readDown least total cs = .ok n ↔ readUp (-least) (-total) cs = .ok (-n) := by
  induction cs generalizing total with
  | nil =>
    simp only [readDown, readUp, Except.ok.injEq]
    omega
  | cons c rest ih =>
    have hnext : -total * 10 + digitValue c = -(total * 10 - digitValue c) := by ring
    simp only [readDown, readUp, hnext, neg_lt_neg_iff]
    split
    · simp
    · split
      · simp
      · exact ih

/-- Digits, of which there is at least one. -/
def AreDigits (cs : List Char) : Prop := cs ≠ [] ∧ ∀ c ∈ cs, c.isDigit

/-- A numeral and its number: digits, behind a sign or none. -/
inductive Denotes : List Char → Int → Prop
  | unsigned {cs : List Char} (h : AreDigits cs) : Denotes cs (Nat.ofDigitChars 10 cs 0)
  | plus {cs : List Char} (h : AreDigits cs) : Denotes ('+' :: cs) (Nat.ofDigitChars 10 cs 0)
  | minus {cs : List Char} (h : AreDigits cs) : Denotes ('-' :: cs) (-Nat.ofDigitChars 10 cs 0)

theorem not_areDigits_cons {c : Char} (h : c.isDigit = false) (cs : List Char) :
    ¬AreDigits (c :: cs) := by
  rintro ⟨-, hdigits⟩
  simp [hdigits c List.mem_cons_self] at h

theorem denotes_plus_iff {cs : List Char} {n : Int} :
    Denotes ('+' :: cs) n ↔ AreDigits cs ∧ n = Nat.ofDigitChars 10 cs 0 := by
  constructor
  · rintro (h | h)
    · exact absurd h (not_areDigits_cons (by decide) cs)
    · exact ⟨h, rfl⟩
  · rintro ⟨h, rfl⟩
    exact .plus h

theorem denotes_minus_iff {cs : List Char} {n : Int} :
    Denotes ('-' :: cs) n ↔ AreDigits cs ∧ n = -Nat.ofDigitChars 10 cs 0 := by
  constructor
  · rintro (h | _ | h)
    · exact absurd h (not_areDigits_cons (by decide) cs)
    · exact ⟨h, rfl⟩
  · rintro ⟨h, rfl⟩
    exact .minus h

theorem denotes_iff_of_no_sign {cs : List Char} {n : Int} (hplus : '+' ∉ cs.head?)
    (hminus : '-' ∉ cs.head?) : Denotes cs n ↔ AreDigits cs ∧ n = Nat.ofDigitChars 10 cs 0 := by
  constructor
  · rintro (h | h | h)
    · exact ⟨h, rfl⟩
    · exact absurd rfl hplus
    · exact absurd rfl hminus
  · rintro ⟨h, rfl⟩
    exact .unsigned h

/-- What is read in a range that goes below zero are the numerals of its numbers. -/
theorem readInteger_eq_ok_iff {least greatest : Int} (hleast : least < 0)
    (hgreatest : 0 ≤ greatest) {cs : List Char} {n : Int} :
    readInteger least greatest cs = .ok n ↔ Denotes cs n ∧ least ≤ n ∧ n ≤ greatest := by
  have hup {cs : List Char} (hcs : cs ≠ []) : readUp greatest 0 cs = .ok n ↔
      (AreDigits cs ∧ n = Nat.ofDigitChars 10 cs 0) ∧ least ≤ n ∧ n ≤ greatest := by
    rw [AreDigits, ← Nat.cast_zero, readUp_eq_ok_iff (by simpa using hgreatest)]
    constructor
    · rintro ⟨hdigits, rfl, hn⟩
      exact ⟨⟨⟨hcs, hdigits⟩, rfl⟩, by omega, hn⟩
    · rintro ⟨⟨⟨-, hdigits⟩, rfl⟩, -, hn⟩
      exact ⟨hdigits, rfl, hn⟩
  unfold readInteger
  split
  · simp [denotes_iff_of_no_sign, AreDigits]
  · simp [denotes_plus_iff, AreDigits]
  · simp [denotes_minus_iff, AreDigits]
  · rename_i rest hrest
    rw [denotes_plus_iff]
    exact hup hrest
  · rename_i rest hrest
    have hdown : readUp (-least) 0 rest = .ok (-n) ↔
        (∀ c ∈ rest, c.isDigit) ∧ -n = Nat.ofDigitChars 10 rest 0 ∧ -n ≤ -least := by
      rw [← Nat.cast_zero, readUp_eq_ok_iff (by simpa using hleast.le)]
    rw [if_pos hleast, readDown_eq_ok_iff, neg_zero, hdown, denotes_minus_iff, AreDigits]
    constructor
    · rintro ⟨hdigits, hvalue, hn⟩
      exact ⟨⟨⟨hrest, hdigits⟩, by omega⟩, by omega, by omega⟩
    · rintro ⟨⟨⟨-, hdigits⟩, rfl⟩, hn, -⟩
      exact ⟨hdigits, by omega, by omega⟩
  · rename_i hnil hplusOnly hminusOnly hplus hminus
    rw [denotes_iff_of_no_sign]
    · exact hup hnil
    · intro hmem
      obtain ⟨rest, rfl⟩ := List.head?_eq_some_iff.mp hmem
      exact hplus rest rfl
    · intro hmem
      obtain ⟨rest, rfl⟩ := List.head?_eq_some_iff.mp hmem
      exact hminus rest rfl

theorem Range.read_eq_ok_iff {r : Range} (hleast : r.least < 0) (hgreatest : 0 ≤ r.greatest)
    {s : String} {n : Int} :
    r.read s = .ok n ↔ Denotes s.toList n ∧ r.least ≤ n ∧ n ≤ r.greatest :=
  readInteger_eq_ok_iff hleast hgreatest

theorem areDigits_toDigits (m : Nat) : AreDigits (Nat.toDigits 10 m) :=
  ⟨Nat.toDigits_ne_nil, fun _ hc => Nat.isDigit_of_mem_toDigits (by decide) (by decide) hc⟩

theorem denotes_toString (n : Int) : Denotes (toString n).toList n := by
  have hvalue (m : Nat) : Nat.ofDigitChars 10 (Nat.toDigits 10 m) 0 = m :=
    Nat.ofDigitChars_toDigits (by decide) (by decide)
  have htext : toString n = Int.repr n := rfl
  rw [htext]
  cases n with
  | ofNat m =>
    have hdenotes := Denotes.unsigned (areDigits_toDigits m)
    rwa [hvalue, ← Nat.toList_repr] at hdenotes
  | negSucc m =>
    have hdenotes := Denotes.minus (areDigits_toDigits (m + 1))
    rw [hvalue, ← Nat.toList_repr] at hdenotes
    rw [Int.repr, String.toList_append]
    exact hdenotes

end Number

theorem idText_injective {a b : Int32} (h : idText a = idText b) : a = b :=
  Int32.toInt_inj.mp (Int.repr_injective h)

theorem toList_idText_ne_nil (n : Int32) : (idText n).toList ≠ [] := by
  have hrepr : idText n = Int.repr n.toInt := rfl
  rw [hrepr]
  cases n.toInt with
  | ofNat m => simp [Int.repr, Nat.repr]
  | negSucc m => simp [Int.repr]

theorem isDigit_or_eq_sign_of_mem_idText {n : Int32} {c : Char} (h : c ∈ (idText n).toList) :
    c.isDigit ∨ c = '-' := by
  have hdigits {m : Nat} (hmem : c ∈ (Nat.repr m).toList) : c.isDigit := by
    rw [Nat.toList_repr] at hmem
    exact Nat.isDigit_of_mem_toDigits (by decide) (by decide) hmem
  have hrepr : idText n = Int.repr n.toInt := rfl
  rw [hrepr] at h
  cases hn : n.toInt with
  | ofNat m =>
    rw [hn] at h
    exact .inl (hdigits h)
  | negSucc m =>
    rw [hn, Int.repr, String.toList_append, List.mem_append] at h
    exact h.symm.imp hdigits List.mem_singleton.mp

theorem notMem_idText {c : Char} (hdigit : c.isDigit = false) (hsign : c ≠ '-') (n : Int32) :
    c ∉ (idText n).toList := by
  intro hmem
  rcases isDigit_or_eq_sign_of_mem_idText hmem with hisDigit | hisSign
  · simp [hdigit] at hisDigit
  · exact hsign hisSign

end FleetConsole
