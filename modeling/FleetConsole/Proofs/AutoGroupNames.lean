import FleetConsole.Proofs.RowAccounting

/-! What automatic folders are called. A folder goes by the plural of its type, unless another one
in the same node has that plural too: then both add the plugins of their types. So folders side by
side have one name only if types with one plural come from one plugin. -/
namespace FleetConsole

section Counting

end Counting

namespace Text

end Text

namespace Tree

/-- The node is the automatic folder of a type. -/
def IsAutoGroupOf (catalog : Catalog) (t : ResourceType) (n : Node) : Prop :=
  catalog.type? t.id = some t ∧
    ∃ anchor category name, n.kind = .autoGroup t.id anchor category name

theorem IsAutoGroupOf.nodeClass {catalog : Catalog} {t : ResourceType} {n : Node}
    (h : IsAutoGroupOf catalog t n) : n.kind.nodeClass = .autoGroup := by
  obtain ⟨-, _, _, _, hkind⟩ := h
  rw [hkind]
  rfl

namespace Surroundings

variable {s : Surroundings} {rows : List Resource}

namespace Boxes

def box : ResourceType := ⟨⟨1⟩, "Box", "Web", .service, none, false, none, []⟩

/-- A word of its own with the plural of the box. -/
def boxe : ResourceType := ⟨⟨2⟩, "Boxe", "Store", .service, none, false, none, []⟩

def pool : ResourceType := ⟨⟨3⟩, "Pool", "Web", .service, none, false, none, []⟩

def surroundings : Surroundings :=
  (ofCatalog ⟨[box, boxe, pool], []⟩).withRendered [NodeId.resource ⟨1⟩]

def row (id : Int32) (t : ResourceType) : Resource :=
  ⟨⟨id⟩, "row", none, some ⟨1⟩, t.id, .up, none⟩

def batch : List Resource := [row 4 box, row 5 boxe, row 6 pool]

def folder (t : ResourceType) (name : String) : Node :=
  { surroundings.autoGroupNode batch ⟨1⟩ t with name := name }

def boxes : Node := folder box "Boxes (Web plugin)"

def boxesOfStore : Node := folder boxe "Boxes (Store plugin)"

def pools : Node := folder pool "Pools"

theorem nodes_build : (surroundings.build batch).nodes =
    [boxes, surroundings.resourceNode (some boxes.id) (row 4 box),
      boxesOfStore, surroundings.resourceNode (some boxesOfStore.id) (row 5 boxe),
      pools, surroundings.resourceNode (some pools.id) (row 6 pool)] := by
  cbv

end Boxes

end Surroundings

end Tree

end FleetConsole
