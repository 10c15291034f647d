import FleetConsole.Database.Entities

/-! The tables of the inventory, and the migrations that make them. Each migration is made once, in
a transaction of its own with the note that it is done. -/
namespace FleetConsole.Database

namespace Tables

def schema : String := "CREATE SCHEMA IF NOT EXISTS inventory;"

def subCategories : String :=
  clauses ["CREATE TABLE IF NOT EXISTS inventory.sub_categories (",
    "id INTEGER PRIMARY KEY, name TEXT NOT NULL,",
    "parent_id INTEGER REFERENCES inventory.sub_categories (id)",
    ");"]

def resourceTypes : String :=
  clauses ["CREATE TABLE IF NOT EXISTS inventory.resource_types (",
    "id INTEGER PRIMARY KEY, name TEXT NOT NULL, plugin TEXT NOT NULL,",
    "category TEXT NOT NULL CHECK (category IN ('PLATFORM', 'SERVER', 'SERVICE')),",
    "description TEXT, singleton BOOLEAN NOT NULL DEFAULT FALSE,",
    "sub_category_id INTEGER REFERENCES inventory.sub_categories (id)",
    ");"]

def resourceTypeChildren : String :=
  clauses ["CREATE TABLE IF NOT EXISTS inventory.resource_type_children (",
    "parent_type_id INTEGER NOT NULL REFERENCES inventory.resource_types (id),",
    "child_type_id INTEGER NOT NULL REFERENCES inventory.resource_types (id),",
    "PRIMARY KEY (parent_type_id, child_type_id)",
    ");"]

def resources : String :=
  clauses ["CREATE TABLE IF NOT EXISTS inventory.resources (",
    "id INTEGER PRIMARY KEY, name TEXT NOT NULL, description TEXT,",
    "parent_id INTEGER REFERENCES inventory.resources (id),",
    "type_id INTEGER NOT NULL REFERENCES inventory.resource_types (id),",
    "availability TEXT NOT NULL DEFAULT 'UNKNOWN', ancestry TEXT, version TEXT,",
    "drift_compliant BOOLEAN, locked BOOLEAN NOT NULL DEFAULT FALSE",
    ");"]

def resourcesIndex : String :=
  "CREATE INDEX IF NOT EXISTS resources_parent_idx ON inventory.resources (parent_id);"

def groups : String :=
  clauses ["CREATE TABLE IF NOT EXISTS inventory.groups (",
    "id INTEGER PRIMARY KEY, name TEXT NOT NULL, description TEXT,",
    "category TEXT NOT NULL CHECK (category IN ('COMPATIBLE', 'MIXED')),",
    "type_id INTEGER REFERENCES inventory.resource_types (id),",
    "auto_group_parent_id INTEGER REFERENCES inventory.resources (id), cluster_key TEXT,",
    "clusters JSONB NOT NULL DEFAULT '[]'::jsonb",
    ");"]

def recentlyViewed : String :=
  clauses ["CREATE TABLE IF NOT EXISTS inventory.recently_viewed (",
    "kind TEXT NOT NULL CHECK (kind IN ('resource', 'group')), entity_id INTEGER NOT NULL,",
    "viewed_at TIMESTAMPTZ NOT NULL DEFAULT now(), PRIMARY KEY (kind, entity_id)",
    ");"]

def alertDefinitions : String :=
  clauses ["CREATE TABLE IF NOT EXISTS inventory.alert_definitions (",
    "id INTEGER PRIMARY KEY, name TEXT NOT NULL, description TEXT,",
    "enabled BOOLEAN NOT NULL DEFAULT TRUE,",
    "priority TEXT NOT NULL CHECK (priority IN ('HIGH', 'MEDIUM', 'LOW')),",
    "template_id INTEGER, group_id INTEGER REFERENCES inventory.groups (id),",
    "resource_id INTEGER NOT NULL REFERENCES inventory.resources (id)",
    ");"]

def alerts : String :=
  clauses ["CREATE TABLE IF NOT EXISTS inventory.alerts (",
    "id INTEGER PRIMARY KEY,",
    "definition_id INTEGER NOT NULL REFERENCES inventory.alert_definitions (id),",
    "created_at TIMESTAMPTZ NOT NULL, conditions JSONB NOT NULL DEFAULT '[]'::jsonb,",
    "acknowledged_by TEXT",
    ");"]

def alertsIndex : String :=
  "CREATE INDEX IF NOT EXISTS alerts_created_idx ON inventory.alerts (created_at DESC);"

def configurationUpdates : String :=
  clauses ["CREATE TABLE IF NOT EXISTS inventory.configuration_updates (",
    "resource_id INTEGER NOT NULL REFERENCES inventory.resources (id),",
    "version INTEGER NOT NULL, submitted_at TIMESTAMPTZ NOT NULL, completed_at TIMESTAMPTZ,",
    "status TEXT NOT NULL, username TEXT, PRIMARY KEY (resource_id, version)",
    ");"]

def suspectMetrics : String :=
  clauses ["CREATE TABLE IF NOT EXISTS inventory.suspect_metrics (",
    "schedule_id INTEGER PRIMARY KEY,",
    "resource_id INTEGER NOT NULL REFERENCES inventory.resources (id), metric TEXT NOT NULL,",
    "min_value DOUBLE PRECISION NOT NULL, max_value DOUBLE PRECISION NOT NULL,",
    "avg_value DOUBLE PRECISION NOT NULL",
    ");"]

def operations : String :=
  clauses ["CREATE TABLE IF NOT EXISTS inventory.operations (",
    "history_id INTEGER PRIMARY KEY,",
    "resource_id INTEGER NOT NULL REFERENCES inventory.resources (id),",
    "created_at TIMESTAMPTZ NOT NULL, operation TEXT NOT NULL, requester TEXT NOT NULL,",
    "status TEXT NOT NULL",
    ");"]

def drift : String :=
  clauses ["CREATE TABLE IF NOT EXISTS inventory.drift (",
    "id TEXT PRIMARY KEY, resource_id INTEGER NOT NULL REFERENCES inventory.resources (id),",
    "created_at TIMESTAMPTZ NOT NULL, definition TEXT NOT NULL, snapshot INTEGER NOT NULL,",
    "category TEXT NOT NULL, path TEXT NOT NULL",
    ");"]

end Tables

def inventoryTables : Migration where
  version := 1
  description := "inventory"
  sql := clauses [Tables.schema, Tables.subCategories, Tables.resourceTypes,
    Tables.resourceTypeChildren, Tables.resources, Tables.resourcesIndex, Tables.groups,
    Tables.recentlyViewed, Tables.alertDefinitions, Tables.alerts, Tables.alertsIndex,
    Tables.configurationUpdates, Tables.suspectMetrics, Tables.operations, Tables.drift]

/-- In the order they are made. -/
def migrations : List Migration := [inventoryTables]

/-- What a database says about the migrations made so far. -/
structure MigrationRecord where
  /-- A migration that was begun and not finished. -/
  unfinished : Option Int
  /-- Versions made, and whether the text they were made from is the one known here. -/
  made : Facts Int Bool
  deriving DecidableEq, Repr

inductive MigrationError
  | unfinished (version : Int)
  /-- The migration was made from another text. -/
  | changed (version : Int)
  /-- The migration's own statements failed. -/
  | failed (version : Int) (message : String)
  | database (e : DatabaseError)
  deriving DecidableEq, Repr

section

variable {σ : Type} (server : Server σ)

/-- Makes one migration and notes it. -/
def makeMigration (m : Migration) : Talk σ MigrationError Unit :=
  server.transaction .database .database do
    (server.send (.migration m)).adapt fun e => .failed m.version e.message
    (server.send (.recording m)).adapt .database

/-- Makes a migration unless it is made already. -/
def ensureMigration (record : MigrationRecord) (m : Migration) : Talk σ MigrationError Unit := do
  match record.made.get? m.version with
  | some true => return ()
  | some false => throw (.changed m.version)
  | none => makeMigration server m

/-- Brings the tables up to date. Migrations that are made but not known here do not matter. -/
def migrate (record : MigrationRecord) : Talk σ MigrationError Unit := do
  match record.unfinished with
  | some version => throw (.unfinished version)
  | none => migrations.forM (ensureMigration server record)

end

end FleetConsole.Database
