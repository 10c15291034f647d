import FleetConsole.Group
import FleetConsole.Instant
import FleetConsole.Json
import FleetConsole.Number.Double

/-! The entities of the inventory in JSON. A reader takes what the writer of its type produces. -/
namespace FleetConsole

def idJson (n : Int32) : Json := .integer n.toInt

def ResourceId.toJson (id : ResourceId) : Json := idJson id.val

def ResourceId.ofJson? (j : Json) : Option ResourceId := j.toInt32?.map ResourceId.mk

def TypeId.toJson (id : TypeId) : Json := idJson id.val

def TypeId.ofJson? (j : Json) : Option TypeId := j.toInt32?.map TypeId.mk

def SubCategoryId.toJson (id : SubCategoryId) : Json := idJson id.val

def SubCategoryId.ofJson? (j : Json) : Option SubCategoryId := j.toInt32?.map SubCategoryId.mk

def GroupId.toJson (id : GroupId) : Json := idJson id.val

def GroupId.ofJson? (j : Json) : Option GroupId := j.toInt32?.map GroupId.mk

/-- Times are counts of milliseconds. -/
def Instant.ofJson? (j : Json) : Option Instant :=
  (j.toInteger? .signed64).bind Instant.ofMillis?

/-- Floating point numbers are kept as text, so that each of them has a form. -/
def Number.Double.ofJson? (j : Json) : Option Number.Double := j.toText?.bind ofText?

/-- The text of a value, or null. -/
def optionalText : Option String → Json := Json.ofOption .text

def Category.toJson (c : Category) : Json := .text c.name

def Category.ofJson? : Json → Option Category := Json.toName? ofName?

def Availability.toJson (a : Availability) : Json := .text a.name

def Availability.ofJson? : Json → Option Availability := Json.toName? ofName?

def GroupCategory.toJson (c : GroupCategory) : Json := .text c.name

def GroupCategory.ofJson? : Json → Option GroupCategory := Json.toName? ofName?

def SubCategory.toJson (s : SubCategory) : Json :=
  .object [("id", s.id.toJson), ("name", .text s.name),
    ("parentId", .ofOption SubCategoryId.toJson s.parentId)]

def SubCategory.ofJson? : Json → Option SubCategory := Json.Reader.run do
  return {
    id := ← .required "id" SubCategoryId.ofJson?
    name := ← .required "name" Json.toText?
    parentId := ← .optional "parentId" SubCategoryId.ofJson? }

def ResourceType.toJson (t : ResourceType) : Json :=
  .object [("id", t.id.toJson), ("name", .text t.name), ("plugin", .text t.plugin),
    ("category", t.category.toJson), ("description", optionalText t.description),
    ("singleton", .bool t.singleton),
    ("subCategoryId", .ofOption SubCategoryId.toJson t.subCategoryId),
    ("childTypeIds", .ofList TypeId.toJson t.childTypeIds)]

def ResourceType.ofJson? : Json → Option ResourceType := Json.Reader.run do
  return {
    id := ← .required "id" TypeId.ofJson?
    name := ← .required "name" Json.toText?
    plugin := ← .required "plugin" Json.toText?
    category := ← .required "category" Category.ofJson?
    description := ← .optional "description" Json.toText?
    singleton := ← .required "singleton" Json.toBool?
    subCategoryId := ← .optional "subCategoryId" SubCategoryId.ofJson?
    childTypeIds := ← .defaulting "childTypeIds" (Json.toList? TypeId.ofJson?) [] }

/-- Reads the types and sub-categories of a catalog; of several with one id the last counts. -/
def Catalog.ofJson? (j : Json) : Option Catalog := do
  return .ofLists (← j.fieldOr? "types" (Json.toList? ResourceType.ofJson?) [])
    (← j.fieldOr? "subCategories" (Json.toList? SubCategory.ofJson?) [])

def Resource.toJson (r : Resource) : Json :=
  .object [("id", r.id.toJson), ("name", .text r.name),
    ("description", optionalText r.description),
    ("parentId", .ofOption ResourceId.toJson r.parentId), ("typeId", r.typeId.toJson),
    ("availability", r.availability.toJson), ("ancestry", optionalText r.ancestry)]

def Resource.ofJson? : Json → Option Resource := Json.Reader.run do
  return {
    id := ← .required "id" ResourceId.ofJson?
    name := ← .required "name" Json.toText?
    description := ← .optional "description" Json.toText?
    parentId := ← .optional "parentId" ResourceId.ofJson?
    typeId := ← .required "typeId" TypeId.ofJson?
    availability := ← .defaulting "availability" Availability.ofJson? .unknown
    ancestry := ← .optional "ancestry" Json.toText? }

def GroupVisibility.ofJson? : Json → Option GroupVisibility
  | .text "visible" => some .visible
  | .text "autoGroup" => some .autoGroup
  | .text "autoCluster" => some .autoCluster
  | _ => none

def ResourceGroup.toJson (g : ResourceGroup) : Json :=
  .object [("id", g.id.toJson), ("name", .text g.name),
    ("description", optionalText g.description), ("category", g.category.toJson),
    ("typeId", .ofOption TypeId.toJson g.typeId),
    ("autoGroupParentId", .ofOption ResourceId.toJson g.autoGroupParentId),
    ("clusterKey", optionalText g.clusterKey)]

def ResourceGroup.ofJson? : Json → Option ResourceGroup := Json.Reader.run do
  return {
    id := ← .required "id" GroupId.ofJson?
    name := ← .required "name" Json.toText?
    description := ← .optional "description" Json.toText?
    category := ← .required "category" GroupCategory.ofJson?
    typeId := ← .optional "typeId" TypeId.ofJson?
    autoGroupParentId := ← .optional "autoGroupParentId" ResourceId.ofJson?
    clusterKey := ← .optional "clusterKey" Json.toText? }

def Cluster.toJson : Cluster → Json
  | ⟨typeId, resourceKey, name, members, clusterSize, children⟩ =>
    .object [("typeId", typeId.toJson), ("resourceKey", .text resourceKey),
      ("name", .text name), ("members", .ofNat members), ("clusterSize", .ofNat clusterSize),
      ("children", .list (children.map toJson))]

/-- Reads clusters nested no deeper than `depth`. -/
def Cluster.readWithin : (depth : Nat) → Json → Option Cluster
  | 0 => fun _ => none
  | depth + 1 => Json.Reader.run do
    return {
      typeId := ← .required "typeId" TypeId.ofJson?
      resourceKey := ← .required "resourceKey" Json.toText?
      name := ← .required "name" Json.toText?
      members := ← .required "members" Json.toCount?
      clusterSize := ← .required "clusterSize" Json.toCount?
      children := ← .defaulting "children" (Json.toList? (readWithin depth)) [] }

/-- A cluster and its children take up a level of the value each. -/
def Cluster.ofJson? (j : Json) : Option Cluster := readWithin j.depth j

def ClusterKey.stepJson (step : TypeId × String) : Json :=
  .list [step.1.toJson, .text step.2]

def ClusterKey.stepOfJson? : Json → Option (TypeId × String)
  | .list [typeId, .text resourceKey] => (TypeId.ofJson? typeId).map (·, resourceKey)
  | _ => none

def ClusterKey.toJson (k : ClusterKey) : Json :=
  .object [("groupId", k.groupId.toJson), ("path", .ofList stepJson k.path)]

def ClusterKey.ofJson? : Json → Option ClusterKey := Json.Reader.run do
  return {
    groupId := ← .required "groupId" GroupId.ofJson?
    path := ← .required "path" (Json.toList? stepOfJson?) }

end FleetConsole
