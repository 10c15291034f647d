/-! Blank characters, and text with its blank ends removed. -/
namespace FleetConsole.Text

/-- The white space characters of the Unicode standard. -/
def isBlank (c : Char) : Bool :=
  let n := c.toNat
  (9 ≤ n && n ≤ 13) || n == 0x20 || n == 0x85 || n == 0xA0 || n == 0x1680 ||
    (0x2000 ≤ n && n ≤ 0x200A) || n == 0x2028 || n == 0x2029 || n == 0x202F ||
    n == 0x205F || n == 0x3000

theorem isBlank_of_isDigit {c : Char} (h : c.isDigit) : isBlank c = false := by
  obtain ⟨hlow, hhigh⟩ : 48 ≤ c.toNat ∧ c.toNat ≤ 57 := Char.isDigit_iff_toNat.mp h
  simp [isBlank]
  omega

/-- Drops the longest run of matching characters at the end. -/
def dropTrailing (p : Char → Bool) (cs : List Char) : List Char :=
  (cs.reverse.dropWhile p).reverse

@[simp] theorem dropTrailing_nil (p : Char → Bool) : dropTrailing p [] = [] := rfl

theorem dropWhile_eq_self {p : Char → Bool} {cs : List Char} (h : ∀ c ∈ cs.head?, p c = false) :
    cs.dropWhile p = cs := by
  cases cs with
  | nil => rfl
  | cons c rest => simp [h c rfl]

theorem dropTrailing_eq_self {p : Char → Bool} {cs : List Char}
    (h : ∀ c ∈ cs.getLast?, p c = false) : dropTrailing p cs = cs := by
  rcases cs.eq_nil_or_concat with rfl | ⟨init, c, rfl⟩
  · rfl
  · have hc : p c = false := h c (by simp)
    simp [dropTrailing, hc]

theorem dropTrailing_append {p : Char → Bool} {front : List Char}
    (hfront : ∀ c ∈ front, p c = false) (rest : List Char) :
    dropTrailing p (front ++ rest) = front ++ dropTrailing p rest := by
  have hkept : front.reverse.dropWhile p = front.reverse :=
    dropWhile_eq_self fun c hc => hfront c (List.mem_reverse.mp (List.mem_of_head? hc))
  rw [dropTrailing, dropTrailing, List.reverse_append, List.dropWhile_append]
  split
  · rename_i hempty
    rw [List.isEmpty_iff.mp hempty, hkept]
    simp
  · simp

def trimChars (cs : List Char) : List Char :=
  dropTrailing isBlank (cs.dropWhile isBlank)

@[simp] theorem trimChars_nil : trimChars [] = [] := rfl

theorem of_mem_head?_dropWhile {p : Char → Bool} {cs : List Char} {c : Char}
    (h : c ∈ (cs.dropWhile p).head?) : p c = false := by
  have hnot := List.head?_dropWhile_not p cs
  rw [Option.mem_def.mp h] at hnot
  simpa using hnot

theorem trimChars_sublist (cs : List Char) : List.Sublist (trimChars cs) cs := by
  have hback := (List.dropWhile_sublist isBlank (l := (cs.dropWhile isBlank).reverse)).reverse
  rw [List.reverse_reverse] at hback
  exact hback.trans (List.dropWhile_sublist isBlank)

theorem isBlank_of_head?_trimChars {cs : List Char} {c : Char} (h : c ∈ (trimChars cs).head?) :
    isBlank c = false := by
  rw [trimChars] at h
  cases hkept : cs.dropWhile isBlank with
  | nil => simp [hkept] at h
  | cons first rest =>
    have hfirst : isBlank first = false := of_mem_head?_dropWhile (by rw [hkept]; rfl)
    rw [hkept, ← List.singleton_append, dropTrailing_append (by simpa using hfirst)] at h
    obtain rfl : first = c := by simpa using h
    exact hfirst

theorem isBlank_of_getLast?_trimChars {cs : List Char} {c : Char}
    (h : c ∈ (trimChars cs).getLast?) : isBlank c = false := by
  rw [trimChars, dropTrailing, List.getLast?_reverse] at h
  exact of_mem_head?_dropWhile h

theorem trimChars_eq_self {cs : List Char} (hfirst : ∀ c ∈ cs.head?, isBlank c = false)
    (hlast : ∀ c ∈ cs.getLast?, isBlank c = false) : trimChars cs = cs := by
  rw [trimChars, dropWhile_eq_self hfirst, dropTrailing_eq_self hlast]

/-- The text without the blank characters at either end. -/
def trim (s : String) : String := String.ofList (trimChars s.toList)

@[simp] theorem toList_trim (s : String) : (trim s).toList = trimChars s.toList := by
  simp [trim]

/-- Text with no character but blank ones. -/
def isBlankText (s : String) : Bool := s.toList.all isBlank

end FleetConsole.Text
