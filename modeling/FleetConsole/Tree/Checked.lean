import FleetConsole.Tree.Clusters
import FleetConsole.Tree.Order
import FleetConsole.Tree.Resources

/-! Trees that are sent to a page only if it can show them in their order. -/
namespace FleetConsole.Tree

/-- The tree of a batch, unless its nodes are out of order for the page. -/
def Surroundings.checkedBuild (s : Surroundings) (rows : List Resource) : Except Fault Build := do
  let b := s.build rows
  ensureOrder b.nodes s.rendered
  return b

/-- The tree of a group, unless its nodes are out of order. -/
def checkedClusterTree (catalog : Catalog) (g : ResourceGroup) (clusters : List Cluster) :
    Except Fault (List Node) := do
  let nodes := clusterTree catalog g clusters
  ensureOrder nodes []
  return nodes

def unknownResource (id : ResourceId) : Fault :=
  .notFound "Resource not found" ("resource " ++ id.text ++ " not found")

def unknownGroup (id : GroupId) : Fault :=
  .notFound "Group not found" ("group " ++ id.text ++ " not found")

end FleetConsole.Tree
