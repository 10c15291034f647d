import FleetConsole.Text.Blank
import FleetConsole.Text.Split

/-! The path behind the hash sign of an address, as segments and a cursor. Views consume it from
the left. -/
namespace FleetConsole.Navigation

structure ViewPath where
  segments : List String
  index : Nat
  /-- Whether content that is loaded already must be loaded again. -/
  refresh : Bool
  deriving DecidableEq, Repr

/-- Segments that begin with a digit are ids of entities. -/
def isEntityId (segment : String) : Bool := segment.toList.head?.any Char.isDigit

namespace ViewPath

/-- The segments of a token: the texts between slashes, without blanks around them and without
empty ones; hash signs in front do not count. -/
def segmentsOf (token : String) : List String :=
  let cs := (Text.trimChars token.toList).dropWhile (· = '#')
  (((cs.splitOn '/').map Text.trimChars).filter (!·.isEmpty)).map String.ofList

def ofToken (token : String) : ViewPath := ⟨segmentsOf token, 0, false⟩

theorem segments_ofToken (token : String) : (ofToken token).segments = segmentsOf token := rfl

def withRefresh (p : ViewPath) (refresh : Bool) : ViewPath := { p with refresh }

def current? (p : ViewPath) : Option String := p.segments[p.index]?

def peek? (p : ViewPath) : Option String := p.segments[p.index + 1]?

/-- Moves the cursor one segment on, but never past the end. -/
def advance (p : ViewPath) : ViewPath :=
  if p.index < p.segments.length then { p with index := p.index + 1 } else p

def isEnd (p : ViewPath) : Bool := p.segments.length ≤ p.index

def isEmpty (p : ViewPath) : Bool := p.segments.isEmpty

def remaining (p : ViewPath) : List String := p.segments.drop p.index

theorem remaining_ofToken (token : String) : (ofToken token).remaining = segmentsOf token := rfl

def join (segments : List String) : String := Text.joinWith "/" segments

/-- The path down to the current segment. -/
def pathToCurrent (p : ViewPath) : String := join (p.segments.take (p.index + 1))

/-- The path as it is shown. -/
def text (p : ViewPath) : String := join p.segments

/-- The title of the page: ids are left out unless they come first. -/
def title (p : ViewPath) (product : String) : String :=
  match p.segments with
  | [] => ""
  | first :: rest =>
    Text.joinWith " | " ((product ++ ": " ++ first) :: rest.filter fun s => !isEntityId s)

theorem text_withRefresh (p : ViewPath) (refresh : Bool) :
    (p.withRefresh refresh).text = p.text := rfl

theorem title_withRefresh (p : ViewPath) (refresh : Bool) (product : String) :
    (p.withRefresh refresh).title product = p.title product := rfl

@[simp] theorem segments_advance (p : ViewPath) : p.advance.segments = p.segments := by
  unfold advance
  split <;> rfl

@[simp] theorem refresh_advance (p : ViewPath) : p.advance.refresh = p.refresh := by
  unfold advance
  split <;> rfl

@[simp] theorem remaining_advance (p : ViewPath) : p.advance.remaining = p.remaining.tail := by
  unfold advance remaining
  split
  · simp [List.tail_drop]
  · rw [List.drop_eq_nil_of_le (by omega)]
    rfl

theorem current?_eq_head? (p : ViewPath) : p.current? = p.remaining.head? := by
  simp [current?, remaining, List.head?_drop]

end ViewPath

end FleetConsole.Navigation
