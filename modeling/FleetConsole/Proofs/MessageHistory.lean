import Mathlib.Data.List.DropRight
import FleetConsole.Message

/-! The history of messages after any number of posts and clearings. Room is made one message at a
time, the oldest first, and so what is kept is the end of all that was posted since the history was
last cleared. -/
namespace FleetConsole

/-- What can be done to a history. -/
inductive HistoryStep
  | post (message : Message)
  | clear
  deriving DecidableEq, Repr

namespace HistoryStep

def message? : HistoryStep → Option Message
  | .post message => some message
  | .clear => none

/-- The messages posted behind the last clearing, oldest first. -/
def sinceClear (steps : List HistoryStep) : List Message :=
  (steps.rtakeWhile fun step => step.message?.isSome).filterMap message?

@[simp] theorem sinceClear_nil : sinceClear [] = [] := rfl

@[simp] theorem sinceClear_append_post (steps : List HistoryStep) (message : Message) :
    sinceClear (steps ++ [.post message]) = sinceClear steps ++ [message] := by
  simp [sinceClear, message?]

@[simp] theorem sinceClear_append_clear (steps : List HistoryStep) :
    sinceClear (steps ++ [.clear]) = [] := by
  simp [sinceClear, message?]

end HistoryStep

namespace MessageCenter

/-- Forgets the oldest message, over and over, until there is room for one more. -/
def makeRoom (capacity : Nat) : List Message → List Message
  | [] => []
  | message :: newer =>
    if (message :: newer).length < capacity then message :: newer else makeRoom capacity newer

theorem makeRoom_eq_rtake (room : Nat) (messages : List Message) :
    makeRoom (room + 1) messages = messages.rtake room := by
  induction messages with
  | nil => simp [makeRoom]
  | cons message newer ih =>
    by_cases h : newer.length < room
    · have hall : newer.length + 1 - room = 0 := by omega
      simp [makeRoom, h, List.rtake, hall]
    · have hforget : newer.length + 1 - room = newer.length - room + 1 := by omega
      simp [makeRoom, h, ih, List.rtake, hforget]

theorem messages_post (m : MessageCenter) (message : Message) :
    (m.post message).messages = makeRoom m.capacity m.messages ++ [message] := by
  obtain ⟨room, hroom⟩ := Nat.exists_eq_add_of_le' m.capacity_pos
  simp [post, hroom, makeRoom_eq_rtake, List.rtake]

@[simp] theorem capacity_clear (m : MessageCenter) : m.clear.capacity = m.capacity := rfl

def after (m : MessageCenter) : HistoryStep → MessageCenter
  | .post message => m.post message
  | .clear => m.clear

def afterSteps (m : MessageCenter) (steps : List HistoryStep) : MessageCenter :=
  steps.foldl after m

theorem afterSteps_append_singleton (m : MessageCenter) (steps : List HistoryStep)
    (step : HistoryStep) : m.afterSteps (steps ++ [step]) = (m.afterSteps steps).after step := by
  simp [afterSteps]

/-- A history that holds the newest of what was posted, as many as there is room for. -/
def Keeps (m : MessageCenter) (posted : List Message) : Prop :=
  m.messages = posted.rtake m.capacity

theorem keeps_ofCapacity (capacity : Nat) : (ofCapacity capacity).Keeps [] := by
  simp [Keeps]

theorem keeps_clear (m : MessageCenter) : m.clear.Keeps [] := by
  simp [Keeps]

/-- A post forgets just what would no longer be among the newest. -/
theorem Keeps.post {m : MessageCenter} {posted : List Message} (h : m.Keeps posted)
    (message : Message) : (m.post message).Keeps (posted ++ [message]) := by
  obtain ⟨room, hroom⟩ := Nat.exists_eq_add_of_le' m.capacity_pos
  have hinner : (posted.rtake (room + 1)).rtake room = posted.rtake room := by
    simp only [List.rtake, List.drop_drop, List.length_drop]
    congr 1
    omega
  show (m.post message).messages = (posted ++ [message]).rtake m.capacity
  rw [messages_post, h, hroom, makeRoom_eq_rtake, hinner, List.rtake_concat_succ]

theorem keeps_afterSteps (m : MessageCenter) (h : m.Keeps []) (steps : List HistoryStep) :
    (m.afterSteps steps).Keeps (HistoryStep.sinceClear steps) ∧
      (m.afterSteps steps).capacity = m.capacity := by
  induction steps using List.reverseRecOn with
  | nil => exact ⟨h, rfl⟩
  | append_singleton steps step ih =>
    rw [afterSteps_append_singleton]
    cases step with
    | post message => simpa [after, ih.2] using ih.1.post message
    | clear => simpa [after, ih.2] using keeps_clear (m.afterSteps steps)

theorem Keeps.latest? {m : MessageCenter} {posted : List Message} (h : m.Keeps posted) :
    m.latest? = posted.getLast? := by
  have hpos := m.capacity_pos
  rw [MessageCenter.latest?, h, List.rtake, List.getLast?_drop]
  by_cases hnone : posted.length = 0
  · simp [List.length_eq_zero_iff.mp hnone]
  · apply if_neg
    omega

/-- After any posts and clearings a history holds the newest messages posted since the last
clearing, in the order they were posted: all of them, or as many as there is room for. The latest
one is the newest of them, and there is none just if nothing was posted since. -/
theorem newest_messages_kept (capacity : Nat) (steps : List HistoryStep) :
    let history := (ofCapacity capacity).afterSteps steps
    let posted := HistoryStep.sinceClear steps
    let kept := min (max capacity 1) posted.length
    history.messages = posted.rtake kept ∧ history.messages.length = kept ∧
      history.latest? = posted.getLast? ∧ (history.latest? = none ↔ posted.length = 0) := by
  intro history posted kept
  obtain ⟨hkeeps, hcapacity⟩ := keeps_afterSteps _ (keeps_ofCapacity capacity) steps
  have hmessages : history.messages = posted.rtake kept := by
    have hroom : history.capacity = max capacity 1 := hcapacity
    have hstart : posted.length - max capacity 1 = posted.length - kept := by omega
    calc
      history.messages = posted.rtake (max capacity 1) := hroom ▸ hkeeps
      _ = posted.rtake kept := by simp only [List.rtake, hstart]
  refine ⟨hmessages, ?_, hkeeps.latest?, ?_⟩
  · rw [hmessages, List.rtake, List.length_drop]
    omega
  · rw [hkeeps.latest?]
    simp [posted]

end MessageCenter

end FleetConsole
