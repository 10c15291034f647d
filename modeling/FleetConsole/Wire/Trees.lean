import FleetConsole.Tree.Order
import FleetConsole.Tree.Resources
import FleetConsole.Wire.Models

/-! Trees in JSON, as a page receives them. Records of more than one kind carry their kind in the
member `type`. -/
namespace FleetConsole.Tree

def NodeId.toJson (id : NodeId) : Json := .text id.text

def NodeId.ofJson? (j : Json) : Option NodeId := j.toText?.map NodeId.mk

/-- A record of the kind `type`. -/
def tagged (type : String) (members : List (String × Json)) : Json :=
  .object (("type", .text type) :: members)

def categoryJson : Option Category → Json := Json.ofOption Category.toJson

def NodeKind.toJson : NodeKind → Json
  | .resource id typeId cat availability =>
    tagged "resource" [("resource_id", id.toJson), ("type_id", typeId.toJson),
      ("category", categoryJson cat), ("availability", availability.toJson)]
  | .group id groupCategory typeId cat =>
    tagged "group" [("group_id", id.toJson), ("group_category", groupCategory.toJson),
      ("type_id", .ofOption TypeId.toJson typeId), ("category", categoryJson cat)]
  | .cluster key typeId cat =>
    tagged "cluster" [("key", key.toJson), ("type_id", typeId.toJson),
      ("category", categoryJson cat)]
  | .category subCategoryId anchor =>
    tagged "category" [("sub_category_id", .ofOption SubCategoryId.toJson subCategoryId),
      ("anchor_id", anchor.toJson)]
  | .autoGroup typeId anchor cat backingGroupName =>
    tagged "auto_group" [("type_id", typeId.toJson), ("anchor_id", anchor.toJson),
      ("category", categoryJson cat), ("backing_group_name", optionalText backingGroupName)]

/-- What a node lacks is left out. -/
def Node.toJson (n : Node) : Json :=
  .object ([("id", n.id.toJson)] ++ Json.memberIfSome "parentId" NodeId.toJson n.parentId ++
    [("kind", n.kind.toJson), ("name", .text n.name)] ++
    Json.memberIfSome "description" .text n.description ++
    Json.memberIfSome "tooltip" .text n.tooltip ++
    [("isFolder", .bool n.isFolder), ("locked", .bool n.locked)])

def Diagnostic.toJson : Diagnostic → Json
  | .duplicateEntity id => tagged "duplicate_entity" [("resource_id", id.toJson)]
  | .parentCycle id => tagged "parent_cycle" [("resource_id", id.toJson)]
  | .orphanReanchored id missingParent =>
    tagged "orphan_reanchored" [("resource_id", id.toJson),
      ("missing_parent_id", missingParent.toJson)]
  | .unknownResourceType id typeId =>
    tagged "unknown_resource_type" [("resource_id", id.toJson), ("type_id", typeId.toJson)]
  | .unknownSubCategory typeId id =>
    tagged "unknown_sub_category" [("type_id", typeId.toJson), ("sub_category_id", id.toJson)]
  | .subCategoryCycle typeId id =>
    tagged "sub_category_cycle" [("type_id", typeId.toJson), ("sub_category_id", id.toJson)]

def Build.toJson (b : Build) : Json :=
  .object [("nodes", .ofList Node.toJson b.nodes),
    ("diagnostics", .ofList Diagnostic.toJson b.diagnostics)]

def Violation.typeName : Violation → String
  | .duplicateNodeId _ => "duplicate_node_id"
  | .selfParent _ => "self_parent"
  | .parentAfterChild .. => "parent_after_child"
  | .unknownParent .. => "unknown_parent"

def Violation.toJson (v : Violation) : Json :=
  tagged v.typeName (("node_id", v.node.toJson) ::
    Json.memberIfSome "parent_id" NodeId.toJson v.parent?)

end FleetConsole.Tree
