/-! Messages to the user, and the short history of them that the console keeps. -/
namespace FleetConsole

inductive Severity
  | info | warning | error | fatal
  deriving DecidableEq, Repr

namespace Severity

def name : Severity → String
  | .info => "info"
  | .warning => "warning"
  | .error => "error"
  | .fatal => "fatal"

def ofName? : String → Option Severity
  | "info" => some .info
  | "warning" => some .warning
  | "error" => some .error
  | "fatal" => some .fatal
  | _ => none

end Severity

structure Message where
  severity : Severity
  concise : String
  detail : Option String
  deriving DecidableEq, Repr

def Message.warning (concise detail : String) : Message := ⟨.warning, concise, some detail⟩

def Message.error (concise detail : String) : Message := ⟨.error, concise, some detail⟩

/-- The newest messages, newest last: never more than the capacity, which is at least one. -/
structure MessageCenter where
  capacity : Nat
  messages : List Message
  capacity_pos : 0 < capacity
  length_le : messages.length ≤ capacity

namespace MessageCenter

def defaultCapacity : Nat := 50

/-- An empty history; a capacity of zero counts as one. -/
def ofCapacity (capacity : Nat) : MessageCenter :=
  ⟨max capacity 1, [], by omega, by simp⟩

/-- Adds a message, forgetting the oldest ones for which there is no room. -/
def post (m : MessageCenter) (message : Message) : MessageCenter where
  capacity := m.capacity
  messages := m.messages.drop (m.messages.length + 1 - m.capacity) ++ [message]
  capacity_pos := m.capacity_pos
  length_le := by
    have := m.capacity_pos
    simp only [List.length_append, List.length_drop, List.length_singleton]
    omega

def clear (m : MessageCenter) : MessageCenter :=
  { m with messages := [], length_le := by simp }

def latest? (m : MessageCenter) : Option Message := m.messages.getLast?

@[simp] theorem messages_ofCapacity (capacity : Nat) : (ofCapacity capacity).messages = [] := rfl

@[simp] theorem capacity_post (m : MessageCenter) (message : Message) :
    (m.post message).capacity = m.capacity := rfl

@[simp] theorem messages_clear (m : MessageCenter) : m.clear.messages = [] := rfl

@[simp] theorem latest?_post (m : MessageCenter) (message : Message) :
    (m.post message).latest? = some message := by
  simp [latest?, post]

end MessageCenter

end FleetConsole
