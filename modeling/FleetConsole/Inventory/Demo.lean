import FleetConsole.Inventory.Basic

/-! A small inventory for demonstrations: a Linux host with two application servers. -/
namespace FleetConsole.Inventory.Demo

open Report

def type (id : Int32) (name plugin : String) (category : Category) (singleton : Bool)
    (subCategory : Option Int32) (children : List Int32) : ResourceType :=
  ⟨⟨id⟩, name, plugin, category, none, singleton, subCategory.map SubCategoryId.mk,
    children.map TypeId.mk⟩

def catalog : Catalog :=
  .ofLists
    [type 1 "Linux" "Platforms" .platform false none [2, 3, 4],
      type 2 "JBossAS7 Standalone Server" "JBossAS7" .server false none [5, 6],
      type 3 "CPU" "Platforms" .service false (some 1) [],
      type 4 "File System" "Platforms" .service true (some 1) [],
      type 5 "Datasource" "JBossAS7" .service false (some 3) [],
      type 6 "Web Runtime" "JBossAS7" .service true (some 2) []]
    [⟨⟨1⟩, "Hardware", none⟩, ⟨⟨2⟩, "Subsystems", none⟩, ⟨⟨3⟩, "Datasources", some ⟨2⟩⟩]

/-- A resource below `parent`. -/
def resource (id : Int32) (name : String) (parent : Option Resource) (typeId : Int32)
    (availability : Availability) : Resource :=
  ⟨⟨id⟩, name, none, parent.map Resource.id, ⟨typeId⟩, availability,
    parent.map Resource.ancestryBelow⟩

def host : Resource := resource 10001 "host.example.com" none 1 .up

def cpu0 : Resource := resource 10002 "CPU 0" host 3 .up

def cpu1 : Resource := resource 10003 "CPU 1" host 3 .up

def rootFileSystem : Resource := resource 10004 "/" host 4 .up

def server1 : Resource := resource 10010 "AS7 (node1)" host 2 .up

def server2 : Resource := resource 10020 "AS7 (node2)" host 2 .down

def exampleSource1 : Resource := resource 10011 "ExampleDS" server1 5 .up

def reportingSource : Resource := resource 10012 "ReportingDS" server1 5 .disabled

def webRuntime : Resource := resource 10013 "Web Runtime" server1 6 .up

def exampleSource2 : Resource := resource 10021 "ExampleDS" server2 5 .down

def groups : List ResourceGroup :=
  [⟨⟨20001⟩, "App Servers", some "Both standalone servers", .compatible, some ⟨2⟩, none, none⟩,
    ⟨⟨20002⟩, "host.example.com ( CPU )", none, .compatible, some ⟨3⟩, some host.id, none⟩]

def clusters : List Cluster :=
  [⟨⟨5⟩, "ExampleDS", "ExampleDS", 2, 2, []⟩, ⟨⟨5⟩, "ReportingDS", "ReportingDS", 1, 2, []⟩,
    ⟨⟨6⟩, "web", "Web Runtime", 1, 2, []⟩]

def ref (r : Resource) : ResourceRef := .ofResource r

def minutes (n : Int) : Int := n * 60000

def hours (n : Int) : Int := minutes (n * 60)

def alerts (now : Instant) : List AlertRow :=
  [⟨7001, now.later (-minutes 30), "Server down", [.availability .goesDown], .high, none,
      ref server2, .resource⟩,
    ⟨7002, now.later (-hours 3), "CPU busy", [.threshold "User Load" ">" "90%"], .medium,
      some "rhqadmin", ref cpu0, .group ⟨20002⟩ true⟩]

end Demo

/-- The demonstration as it stands at a point in time. -/
def demo (now : Instant) : Inventory where
  catalog := Demo.catalog
  resources := [Demo.host, Demo.cpu0, Demo.cpu1, Demo.rootFileSystem, Demo.server1, Demo.server2,
    Demo.exampleSource1, Demo.reportingSource, Demo.webRuntime, Demo.exampleSource2]
  groups := Demo.groups
  clusters := [(⟨20001⟩, Demo.clusters)]
  locked := []
  versions := [(Demo.host.id, "3.10.0"), (Demo.server1.id, "7.1.1.Final"),
    (Demo.server2.id, "7.1.1.Final")]
  driftCompliance := [(Demo.server1.id, true), (Demo.server2.id, false)]
  alertDefinitions :=
    [⟨501, "Server down", some "Availability goes down", true, .high, .template 11,
        Demo.ref Demo.server2⟩,
      ⟨502, "Datasource disabled", none, false, .low, .none, Demo.ref Demo.reportingSource⟩]
  configurationUpdates :=
    [⟨2, Demo.ref Demo.server1, now.later (-Demo.hours 5), some (now.later (4000 - Demo.hours 5)),
      .success, some "rhqadmin"⟩]
  suspectMetrics :=
    [⟨9001, Demo.ref Demo.host, "Free Memory", .ofDecimal (.finite false 120 0),
      .ofDecimal (.finite false 20485 (-1)), .ofDecimal (.finite false 81225 (-2))⟩]
  alerts := Demo.alerts now
  operations :=
    [⟨3001, now.later (-Demo.hours 1), "Restart", "rhqadmin", .failure, Demo.ref Demo.server2⟩]
  drift :=
    [⟨"0-10010-1", now.later (-Demo.hours 2), "standalone-config", 1, .fileChanged,
      "standalone/configuration/standalone.xml", Demo.ref Demo.server1⟩]

end FleetConsole.Inventory
