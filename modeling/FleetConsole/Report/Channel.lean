/-! The bounded queue between whoever writes a report and whoever reads it. The writer waits while
the queue is full, the reader while it is empty, and nothing is dropped. -/
namespace FleetConsole.Report

/-- A queue with room for `room + 1` pieces. -/
structure Channel (α : Type) where
  room : Nat
  /-- Pieces written but not yet read, oldest first. -/
  waiting : List α
  deriving DecidableEq, Repr

namespace Channel

variable {α : Type}

/-- An empty queue; a capacity of zero counts as one. -/
def ofCapacity (capacity : Nat) : Channel α := ⟨capacity - 1, []⟩

def isFull (c : Channel α) : Bool := c.room < c.waiting.length

/-- Writes a piece, or gives nothing while the queue is full. -/
def write? (c : Channel α) (piece : α) : Option (Channel α) :=
  if c.isFull then none else some { c with waiting := c.waiting ++ [piece] }

/-- Everything that waits, and the emptied queue. -/
def drain (c : Channel α) : List α × Channel α := (c.waiting, { c with waiting := [] })

/-- What the reader gets when the writer runs until the queue is full and the reader then empties
it, over and over. -/
def relay (c : Channel α) : List α → List α
  | [] => c.waiting
  | piece :: rest =>
    match c.write? piece with
    | some c => relay c rest
    | none =>
      let (read, c) := c.drain
      read ++ relay { c with waiting := [piece] } rest

/-- Nothing is lost or put out of order, whatever the capacity. -/
theorem relay_eq (c : Channel α) (pieces : List α) : c.relay pieces = c.waiting ++ pieces := by
  induction pieces generalizing c with
  | nil => simp [relay]
  | cons piece rest ih =>
    unfold relay write?
    cases h : c.isFull <;> simp [ih, drain]

/-- What a reader gets in the end from a queue and the pieces still to be written, when writer and
reader take turns in any way that the queue allows. -/
inductive Passes : Channel α → List α → List α → Prop
  | done {c : Channel α} (h : c.waiting = []) : Passes c [] []
  | write {c next : Channel α} {piece : α} {rest got : List α} (h : c.write? piece = some next)
      (passes : Passes next rest got) : Passes c (piece :: rest) got
  | read {c : Channel α} {piece : α} {waiting pieces got : List α}
      (h : c.waiting = piece :: waiting) (passes : Passes { c with waiting } pieces got) :
      Passes c pieces (piece :: got)

theorem eq_of_passes {c : Channel α} {pieces got : List α} (h : c.Passes pieces got) :
    got = c.waiting ++ pieces := by
  induction h with
  | done h => simp [h]
  | @write c next piece rest got h _ ih =>
    unfold write? at h
    split at h
    · simp at h
    · rw [ih, ← Option.some.inj h]
      simp
  | read h _ ih => simp [h, ih]

theorem Passes.of_empty {c : Channel α} {pieces got : List α}
    (h : Passes { c with waiting := [] } pieces got) : c.Passes pieces (c.waiting ++ got) := by
  obtain ⟨room, waiting⟩ := c
  induction waiting with
  | nil => exact h
  | cons piece waiting ih => exact .read rfl (ih h)

/-- The queue never gets stuck, whatever its capacity. -/
theorem passes_append (c : Channel α) (pieces : List α) :
    c.Passes pieces (c.waiting ++ pieces) := by
  induction pieces generalizing c with
  | nil => exact .of_empty (.done rfl)
  | cons piece rest ih =>
    refine .of_empty (.write ?_ (ih ⟨c.room, [piece]⟩))
    simp [write?, isFull]

/-- However writer and reader take turns, the reader gets the same. -/
theorem passes_iff {c : Channel α} {pieces got : List α} :
    c.Passes pieces got ↔ got = c.waiting ++ pieces :=
  ⟨eq_of_passes, fun h => h ▸ passes_append c pieces⟩

end Channel

end FleetConsole.Report
