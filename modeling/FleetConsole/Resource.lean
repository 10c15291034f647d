import FleetConsole.Catalog
import FleetConsole.Text.Split

/-! Managed resources: hosts, the servers on them and the services in these, each below its
parent. -/
namespace FleetConsole

inductive Availability
  | up | down | disabled | unknown
  deriving DecidableEq, Repr

namespace Availability

def name : Availability → String
  | .up => "UP"
  | .down => "DOWN"
  | .disabled => "DISABLED"
  | .unknown => "UNKNOWN"

def ofName? : String → Option Availability
  | "UP" => some .up
  | "DOWN" => some .down
  | "DISABLED" => some .disabled
  | "UNKNOWN" => some .unknown
  | _ => none

@[simp] theorem ofName?_name (a : Availability) : ofName? a.name = some a := by cases a <;> rfl

end Availability

structure Resource where
  id : ResourceId
  name : String
  description : Option String
  parentId : Option ResourceId
  typeId : TypeId
  availability : Availability
  ancestry : Option String
  deriving DecidableEq, Repr

/-- One resource above another, as an ancestry text records it. -/
structure Ancestor where
  typeId : TypeId
  id : ResourceId
  name : String
  deriving DecidableEq, Repr

namespace Ancestor

def entry (a : Ancestor) : String := a.typeId.text ++ "_:_" ++ a.id.text ++ "_:_" ++ a.name

end Ancestor

namespace Resource

/-- The ancestry text of a child of `parent`, nearest ancestor first. -/
def ancestryBelow (parent : Resource) : String :=
  let entry := Ancestor.entry ⟨parent.typeId, parent.id, parent.name⟩
  match parent.ancestry with
  | some above => entry ++ "_::_" ++ above
  | none => entry

end Resource

/-- The names in an ancestry text, nearest first. An entry without a third piece has none. -/
def ancestryNames (ancestry : String) : List String :=
  (Text.pieces "_::_" ancestry).filterMap fun entry => (Text.pieces "_:_" entry)[2]?

/-- Ancestry for a reader: `child < parent < grandparent`. -/
def ancestryText : Option String → String
  | none => ""
  | some ancestry => if ancestry = "" then "" else Text.joinWith " < " (ancestryNames ancestry)

end FleetConsole
