import FleetConsole.Tree.Node

/-! The image beside a tree node. -/
namespace FleetConsole.Tree

inductive IconSize
  | small | large
  deriving DecidableEq, Repr

def IconSize.pixels : IconSize → String
  | .small => "16"
  | .large => "24"

/-- How a node is to be drawn. -/
structure IconState where
  /-- Known to be newer than what the node records. -/
  availability : Option Availability
  size : IconSize
  deriving DecidableEq, Repr

/-- Platforms are shown as up or down only. -/
def resourceMark : Category → Availability → String
  | _, .up => "up"
  | .platform, _ => "down"
  | _, .down => "down"
  | _, .disabled => "disabled"
  | _, .unknown => "unknown"

def groupMark : Availability → String
  | .up | .unknown => "up"
  | .down => "down"
  | .disabled => "disabled"

def groupWord : GroupCategory → String
  | .compatible => "Cluster"
  | .mixed => "Group"

def typeImage (word mark : String) (size : IconSize) : String :=
  "types/" ++ word ++ "_" ++ mark ++ "_" ++ size.pixels ++ ".png"

def clusteredImage (category : Category) : String :=
  "resources/" ++ category.displayName ++ "_Group_16.png"

/-- The path of the image below the directory of images. -/
def icon (kind : NodeKind) (state : IconState) : String :=
  match kind with
  | .resource _ _ category availability =>
    let category := category.getD .service
    let mark := resourceMark category (state.availability.getD availability)
    typeImage category.displayName mark state.size
  | .group _ groupCategory _ _ =>
    typeImage (groupWord groupCategory) (groupMark (state.availability.getD .up)) state.size
  | .cluster _ _ category | .autoGroup _ _ category _ => clusteredImage (category.getD .service)
  | .category .. => "[SKIN]/folder_closed.png"

end FleetConsole.Tree
