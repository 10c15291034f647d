import FleetConsole.Fault
import FleetConsole.Text.Split

/-! What users may do in the console as a whole, apart from single resources. -/
namespace FleetConsole

inductive Permission
  /-- Manage users and roles. -/
  | manageSecurity
  /-- Import and remove resources, manage groups. -/
  | manageInventory
  /-- Change system settings, plugins and the servers in use. -/
  | manageSettings
  | manageBundle
  | manageRepositories
  /-- See other users' accounts without changing them. -/
  | viewUsers
  deriving DecidableEq, Repr

namespace Permission

def all : List Permission :=
  [.manageSecurity, .manageInventory, .manageSettings, .manageBundle, .manageRepositories,
    .viewUsers]

def name : Permission → String
  | .manageSecurity => "MANAGE_SECURITY"
  | .manageInventory => "MANAGE_INVENTORY"
  | .manageSettings => "MANAGE_SETTINGS"
  | .manageBundle => "MANAGE_BUNDLE"
  | .manageRepositories => "MANAGE_REPOSITORIES"
  | .viewUsers => "VIEW_USERS"

def ofName? (s : String) : Option Permission := all.find? (·.name = s)

@[simp] theorem ofName?_name (p : Permission) : ofName? p.name = some p := by
  cases p <;> decide

private def deniedSummary : String := "You do not have permission to view this page"

/-- Refuses a user without the permission. -/
def ensure (granted : List Permission) (required : Permission) : Except Fault Unit :=
  if granted.contains required then .ok ()
  else .error (.forbidden deniedSummary ("missing global permission " ++ required.name))

/-- Refuses a user with none of the permissions. -/
def ensureAny (granted accepted : List Permission) : Except Fault Unit :=
  if accepted.any granted.contains then .ok ()
  else .error (.forbidden deniedSummary ("missing one of global permissions [" ++
    Text.joinWith ", " (accepted.map name) ++ "]"))

theorem ensureAny_eq_ok_iff (granted accepted : List Permission) :
    ensureAny granted accepted = .ok () ↔ ∃ p ∈ accepted, p ∈ granted := by
  unfold ensureAny
  split <;> simp_all

theorem kind_of_ensureAny {granted accepted : List Permission} {e : Fault}
    (h : ensureAny granted accepted = .error e) : e.kind = .forbidden := by
  unfold ensureAny at h
  split at h
  · simp at h
  · rw [← Except.error.inj h]
    rfl

end Permission

end FleetConsole
