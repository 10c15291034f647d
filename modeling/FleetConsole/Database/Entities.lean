import FleetConsole.Database.Server
import FleetConsole.Inventory.Store
import FleetConsole.Tree.Checked

/-! The entities of the inventory in a database: how they are asked for and read, and the trees made
of them. -/
namespace FleetConsole.Database

open Column (required nullable)

/-- A stored word that no entity knows. -/
def unexpectedValue (what value : String) : Fault :=
  .database "Stored inventory data is invalid"
    (.stated ("unexpected " ++ what ++ " value '" ++ value ++ "'"))

/-- Reads a stored word; `what` says what it should be. -/
def readWord {α : Type} (what : String) (ofName : String → Option α) (value : String) :
    Except Fault α :=
  match ofName value with
  | some a => .ok a
  | none => .error (unexpectedValue what value)

theorem readWord_eq_ok_iff {α : Type} (what : String) (ofName : String → Option α) (value : String)
    (a : α) : readWord what ofName value = .ok a ↔ ofName value = some a := by
  unfold readWord
  split <;> simp_all

def clauses : List String → String := Text.joinWith " "

def resourceColumns : List Column :=
  [required "id" .int32, required "name" .text, nullable "description" .text,
    nullable "parent_id" .int32, required "type_id" .int32, required "availability" .text,
    nullable "ancestry" .text]

def readResource : Row resourceColumns → Except Fault Resource
  | (id, name, description, parentId, typeId, availability, ancestry, ()) => do
    let availability ← readWord "availability" Availability.ofName? availability
    return ⟨⟨id⟩, name, description, parentId.map ResourceId.mk, ⟨typeId⟩, availability, ancestry⟩

def resourceSelect : String :=
  clauses ["SELECT id, name, description, parent_id, type_id, availability, ancestry",
    "FROM inventory.resources"]

def groupColumns : List Column :=
  [required "id" .int32, required "name" .text, nullable "description" .text,
    required "category" .text, nullable "type_id" .int32, nullable "auto_group_parent_id" .int32,
    nullable "cluster_key" .text]

def readGroup : Row groupColumns → Except Fault ResourceGroup
  | (id, name, description, category, typeId, autoGroupParentId, clusterKey, ()) => do
    let category ← readWord "group category" GroupCategory.ofName? category
    return ⟨⟨id⟩, name, description, category, typeId.map TypeId.mk,
      autoGroupParentId.map ResourceId.mk, clusterKey⟩

def groupSelect : String :=
  clauses ["SELECT id, name, description, category, type_id, auto_group_parent_id, cluster_key",
    "FROM inventory.groups"]

def typeColumns : List Column :=
  [required "id" .int32, required "name" .text, required "plugin" .text,
    required "category" .text, nullable "description" .text, required "singleton" .flag,
    nullable "sub_category_id" .int32, required "child_type_ids" .int32List]

def readType : Row typeColumns → Except Fault ResourceType
  | (id, name, plugin, category, description, singleton, subCategoryId, childTypeIds, ()) => do
    let category ← readWord "category" Category.ofName? category
    return ⟨⟨id⟩, name, plugin, category, description, singleton,
      subCategoryId.map SubCategoryId.mk, childTypeIds.map TypeId.mk⟩

def typeSelect : String :=
  clauses ["SELECT t.id, t.name, t.plugin, t.category, t.description, t.singleton,",
    "t.sub_category_id, COALESCE( array_agg(c.child_type_id ORDER BY c.child_type_id)",
    "FILTER (WHERE c.child_type_id IS NOT NULL), '\x7b\x7d' ) AS child_type_ids",
    "FROM inventory.resource_types t",
    "LEFT JOIN inventory.resource_type_children c ON c.parent_type_id = t.id"]

def subCategoryColumns : List Column :=
  [required "id" .int32, required "name" .text, nullable "parent_id" .int32]

def readSubCategory : Row subCategoryColumns → SubCategory
  | (id, name, parentId, ()) => ⟨⟨id⟩, name, parentId.map SubCategoryId.mk⟩

section

variable {σ : Type} (server : Server σ)

/-- All types and sub-categories. Both are fetched before the words in either are read. -/
def loadCatalog : Talk σ Fault Catalog := do
  let types ← reporting "Failed to load resource types"
    (server.fetchAll typeColumns ⟨clauses [typeSelect, "GROUP BY t.id"], []⟩)
  let subCategories ← reporting "Failed to load sub-categories"
    (server.fetchAll subCategoryColumns
      ⟨clauses ["SELECT id, name, parent_id", "FROM inventory.sub_categories"], []⟩)
  let types ← settled (types.mapM readType)
  return .ofLists types (subCategories.map readSubCategory)

def findResource (id : ResourceId) : Talk σ Fault (Option Resource) := do
  let row ← reporting "Failed to query resource"
    (server.fetchOptional resourceColumns
      ⟨clauses [resourceSelect, "WHERE id = $1"], [.int32 id.val]⟩)
  match row with
  | none => return none
  | some row => return some (← settled (readResource row))

def findGroup (id : GroupId) (visibility : GroupVisibility) :
    Talk σ Fault (Option ResourceGroup) := do
  let row ← reporting "Failed to query group"
    (server.fetchOptional groupColumns ⟨clauses [groupSelect, "WHERE id = $1"], [.int32 id.val]⟩)
  match row with
  | none => return none
  | some row =>
    let g ← settled (readGroup row)
    return if g.isVisibleAs visibility then some g else none

def findType (id : TypeId) : Talk σ Fault (Option ResourceType) := do
  let row ← reporting "Failed to query resource type"
    (server.fetchOptional typeColumns
      ⟨clauses [typeSelect, "WHERE t.id = $1", "GROUP BY t.id"], [.int32 id.val]⟩)
  match row with
  | none => return none
  | some row => return some (← settled (readType row))

/-- The resources that a clause picks, by id. -/
def resourcesWhere (clause : String) (parent : Option ResourceId) : Talk σ Fault (List Resource) :=
  do
    let rows ← reporting "Failed to query resources"
      (server.fetchAll resourceColumns ⟨clauses [resourceSelect, clause, "ORDER BY id"],
        [.ofOption (fun id => .int32 id.val) parent]⟩)
    settled (rows.mapM readResource)

def rootClause : String :=
  clauses ["WHERE ($1::int IS NULL)", "AND (parent_id IS NULL",
    "OR parent_id IN (SELECT id FROM inventory.resources WHERE parent_id IS NULL))"]

def idColumns : List Column := [required "id" .int32]

def lockedIds : Talk σ Fault (List ResourceId) := do
  let rows ← reporting "Failed to query locked resources"
    (server.fetchAll idColumns
      ⟨clauses ["SELECT id", "FROM inventory.resources", "WHERE locked"], []⟩)
  return rows.map fun row => ⟨row.1⟩

/-- The batch of one step of the tree, and the resource it hangs under. -/
def treeBatch : Option ResourceId → Talk σ Fault (List Resource × Option Resource)
  | none => do
    let roots ← resourcesWhere server rootClause none
    return (roots, none)
  | some id => do
    match ← findResource server id with
    | none => throw (Tree.unknownResource id)
    | some parent =>
      let children ← resourcesWhere server "WHERE parent_id = $1" (some id)
      return (children, some parent)

/-- One step of the tree of resources: the first, or the children of a resource. -/
def resourceTree (parent : Option ResourceId) (rendered : List Tree.NodeId) :
    Talk σ Fault Tree.Build := do
  let catalog ← loadCatalog server
  let (batch, anchor) ← treeBatch server parent
  let locked ← lockedIds server
  let plain := ((Tree.Surroundings.ofCatalog catalog).withLocked locked).withRendered rendered
  settled ((anchor.elim plain plain.withAnchor).checkedBuild batch)

def clusterColumns : List Column := [required "clusters" .clusters]

/-- The tree of a group that users made. -/
def groupTree (id : GroupId) : Talk σ Fault (List Tree.Node) := do
  match ← findGroup server id .visible with
  | none => throw (Tree.unknownGroup id)
  | some g =>
    let row ← reporting "Failed to query group clusters"
      (server.fetchOne clusterColumns
        ⟨clauses ["SELECT clusters", "FROM inventory.groups", "WHERE id = $1"], [.int32 id.val]⟩)
    let catalog ← loadCatalog server
    settled (Tree.checkedClusterTree catalog g row.1)

def recordViewSql : String :=
  clauses ["INSERT INTO inventory.recently_viewed (kind, entity_id, viewed_at)",
    "VALUES ($1, $2, now())",
    "ON CONFLICT (kind, entity_id) DO UPDATE SET viewed_at = EXCLUDED.viewed_at"]

def trimViewsSql : String :=
  clauses ["DELETE FROM inventory.recently_viewed", "WHERE kind = $1", "AND entity_id NOT IN (",
    "SELECT entity_id", "FROM inventory.recently_viewed", "WHERE kind = $1",
    "ORDER BY viewed_at DESC", "LIMIT $2", ")"]

/-- Notes a visit and forgets the oldest ones, both or neither. -/
def recordView (kind : String) (id : Int32) : Talk σ Fault Unit :=
  server.transaction (DatabaseError.fault "Failed to start transaction")
    (DatabaseError.fault "Failed to commit transaction") do
      reporting "Failed to record recently viewed entity"
        (server.send (.statement ⟨recordViewSql, [.text kind, .int32 id]⟩))
      reporting "Failed to trim recently viewed entities"
        (server.send (.statement ⟨trimViewsSql,
          [.text kind, .integer (Inventory.recentLimit : Int)]⟩))

/-- The database as the source of navigation. -/
def entitySource : Navigation.EntitySource σ where
  resource id := findResource server id
  group id visibility := findGroup server id visibility
  resourceType id := findType server id
  addRecentResource id := recordView server "resource" id.val
  addRecentGroup id := recordView server "group" id.val

end

end FleetConsole.Database
