import FleetConsole.Navigation.Controller

/-! Storage that is partly out of order, to see what navigation makes of it. -/
namespace FleetConsole.Navigation

/-- What a source of entities is used for. -/
inductive Lookup
  | resource | group | resourceType
  /-- Remembering what was viewed last. -/
  | preferences
  deriving DecidableEq, Repr

def Lookup.ofName? : String → Option Lookup
  | "resource" => some .resource
  | "group" => some .group
  | "type" => some .resourceType
  | "preferences" => some .preferences
  | _ => none

/-- The source with some of its uses failing. A lookup that fails leaves everything as it was. -/
def EntitySource.withOutage {σ : Type} (src : EntitySource σ) (failing : List Lookup) (e : Fault) :
    EntitySource σ :=
  let guarded {α : Type} (lookup : Lookup) (answer : σ → Except Fault α × σ) (s : σ) :
      Except Fault α × σ :=
    if lookup ∈ failing then (.error e, s) else answer s
  { resource := fun id => guarded .resource (src.resource id)
    group := fun id visibility => guarded .group (src.group id visibility)
    resourceType := fun id => guarded .resourceType (src.resourceType id)
    addRecentResource := fun id => guarded .preferences (src.addRecentResource id)
    addRecentGroup := fun id => guarded .preferences (src.addRecentGroup id) }

end FleetConsole.Navigation
