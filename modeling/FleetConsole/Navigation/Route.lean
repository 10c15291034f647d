import FleetConsole.Navigation.ViewPath
import FleetConsole.Permission

/-! The views of the console and the first segments of a path that lead to them. -/
namespace FleetConsole.Navigation

inductive AdminPage
  | users | roles | servers | agents | storageNodes | affinityGroups | systemSettings | templates
  | agentPlugins | serverPlugins
  deriving DecidableEq, Repr

namespace AdminPage

def all : List AdminPage :=
  [.users, .roles, .servers, .agents, .storageNodes, .affinityGroups, .systemSettings, .templates,
    .agentPlugins, .serverPlugins]

def sectionName : AdminPage → String
  | .users | .roles => "Security"
  | .servers | .agents | .storageNodes | .affinityGroups => "Topology"
  | .systemSettings | .templates | .agentPlugins | .serverPlugins => "Configuration"

def name : AdminPage → String
  | .users => "Users"
  | .roles => "Roles"
  | .servers => "Servers"
  | .agents => "Agents"
  | .storageNodes => "StorageNodes"
  | .affinityGroups => "AffinityGroups"
  | .systemSettings => "SystemSettings"
  | .templates => "Templates"
  | .agentPlugins => "AgentPlugins"
  | .serverPlugins => "ServerPlugins"

/-- Any one of these gives access. -/
def requiredPermissions : AdminPage → List Permission
  | .users => [.manageSecurity, .viewUsers]
  | .roles => [.manageSecurity]
  | _ => [.manageSettings]

def ofSegments? (area page : String) : Option AdminPage :=
  all.find? fun p => p.sectionName = area && p.name = page

@[simp] theorem ofSegments?_self (p : AdminPage) : ofSegments? p.sectionName p.name = some p := by
  cases p <;> decide

def path (p : AdminPage) : String := "Administration/" ++ p.sectionName ++ "/" ++ p.name

end AdminPage

/-- The two kinds of detail views. -/
inductive DetailFamily
  | resource | resourceGroup
  deriving DecidableEq, Repr

def DetailFamily.name : DetailFamily → String
  | .resource => "Resource"
  | .resourceGroup => "ResourceGroup"

inductive Route
  /-- The empty path, which leads on to the default view. -/
  | default
  | dashboards
  | inventory
  | reports
  | administration (page : Option AdminPage)
  | resource
  | resourceGroup
  | unknown (path : String)
  deriving DecidableEq, Repr

/-- Where an empty path leads. -/
def defaultView : String := "Dashboards"

/-- Where a detail view leads that cannot be loaded. -/
def inventoryView : String := "Inventory"

namespace Route

def viewName : Route → String
  | .default => "Default"
  | .dashboards => "Dashboards"
  | .inventory => "Inventory"
  | .reports => "Reports"
  | .administration _ => "Administration"
  | .resource => "Resource"
  | .resourceGroup => "ResourceGroup"
  | .unknown _ => "Unknown"

/-- The section and page of the administration, behind its first segment. -/
def readAdministration (p : ViewPath) : Route × ViewPath :=
  match p.current? with
  | none => (.administration none, p)
  | some area =>
    let p := p.advance
    match p.current? with
    | none => (.unknown ("Administration/" ++ area), p)
    | some page =>
      match AdminPage.ofSegments? area page with
      | some found => (.administration (some found), p.advance)
      | none => (.unknown ("Administration/" ++ area ++ "/" ++ page), p.advance)

/-- Consumes the first segment, and for the administration the section and page. -/
def read (p : ViewPath) : Route × ViewPath :=
  match p.current? with
  | none => (.default, p)
  | some "Dashboards" => (.dashboards, p.advance)
  | some "Inventory" => (.inventory, p.advance)
  | some "Reports" => (.reports, p.advance)
  | some "Resource" => (.resource, p.advance)
  | some "ResourceGroup" => (.resourceGroup, p.advance)
  | some "Administration" => readAdministration p.advance
  | some other => (.unknown other, p.advance)

def detailFamily? : Route → Option DetailFamily
  | .resource => some .resource
  | .resourceGroup => some .resourceGroup
  | _ => none

/-- Only pages of the administration ask for permissions. -/
def authorize (r : Route) (granted : List Permission) : Except Fault Unit :=
  match r with
  | .administration (some page) => Permission.ensureAny granted page.requiredPermissions
  | _ => .ok ()

end Route

end FleetConsole.Navigation
