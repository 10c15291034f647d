import FleetConsole.Fault
import FleetConsole.Text.Quoted
import FleetConsole.Text.Split
import FleetConsole.Tree.Node

/-! Whether a list of nodes can be shown in its order: ids are used once, and every node follows
the node it names as parent unless that one is on the page already. -/
namespace FleetConsole.Tree

inductive Violation
  | duplicateNodeId (node : NodeId)
  | selfParent (node : NodeId)
  | parentAfterChild (node parent : NodeId)
  | unknownParent (node parent : NodeId)
  deriving DecidableEq, Repr

namespace Violation

def code : Violation → String
  | .duplicateNodeId _ => "tree_duplicate_node"
  | .selfParent _ => "tree_self_parent"
  | .parentAfterChild .. => "tree_parent_after_child"
  | .unknownParent .. => "tree_unknown_parent"

def summary : Violation → String
  | .duplicateNodeId _ => "Tree node ids must be unique"
  | .selfParent _ => "Tree nodes cannot be their own parent"
  | .parentAfterChild .. => "Tree nodes must follow the node they name as parent"
  | .unknownParent .. => "Tree node references an unknown parent"

def node : Violation → NodeId
  | .duplicateNodeId n | .selfParent n | .parentAfterChild n _ | .unknownParent n _ => n

def parent? : Violation → Option NodeId
  | .duplicateNodeId _ | .selfParent _ => none
  | .parentAfterChild _ p | .unknownParent _ p => some p

def label : Violation → String
  | .duplicateNodeId _ => "DuplicateNodeId"
  | .selfParent _ => "SelfParent"
  | .parentAfterChild .. => "ParentAfterChild"
  | .unknownParent .. => "UnknownParent"

/-- The violation as the log shows it. -/
def describe (v : Violation) : String :=
  let id (n : NodeId) : String := "NodeId(" ++ Text.quoted n.text ++ ")"
  v.label ++ " \x7b node_id: " ++ id v.node ++
    (match v.parent? with | none => "" | some p => ", parent_id: " ++ id p) ++ " \x7d"

end Violation

/-- What is wrong with the parent of a node, given the ids before it. -/
def parentViolation (all rendered seen : List NodeId) (node : Node) : Option Violation :=
  match node.parentId with
  | none => none
  | some parent =>
    if parent = node.id then some (.selfParent node.id)
    else if seen.contains parent || rendered.contains parent then none
    else if all.contains parent then some (.parentAfterChild node.id parent)
    else some (.unknownParent node.id parent)

def repeatViolation (seen : List NodeId) (node : Node) : Option Violation :=
  if seen.contains node.id then some (.duplicateNodeId node.id) else none

def violationsFrom (all rendered : List NodeId) : (seen : List NodeId) → List Node → List Violation
  | _, [] => []
  | seen, node :: rest =>
    (parentViolation all rendered seen node).toList ++ (repeatViolation seen node).toList ++
      violationsFrom all rendered (node.id :: seen) rest

/-- Everything wrong with the order of the nodes, in their order. -/
def violations (nodes : List Node) (rendered : List NodeId) : List Violation :=
  violationsFrom (nodes.map Node.id) rendered [] nodes

/-- The fault of a tree that cannot be shown goes by its first violation. -/
def orderFault (first : Violation) (all : List Violation) : Fault :=
  .invalidWithCode first.code first.summary
    ("tree order validation failed: [" ++ Text.joinWith ", " (all.map Violation.describe) ++ "]")

def ensureOrder (nodes : List Node) (rendered : List NodeId) : Except Fault Unit :=
  match violations nodes rendered with
  | [] => .ok ()
  | first :: rest => .error (orderFault first (first :: rest))

theorem ensureOrder_eq_ok_iff (nodes : List Node) (rendered : List NodeId) :
    ensureOrder nodes rendered = .ok () ↔ violations nodes rendered = [] := by
  unfold ensureOrder
  split <;> simp_all

end FleetConsole.Tree
