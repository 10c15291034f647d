import FleetConsole.Fault
import FleetConsole.Text.Blank
import FleetConsole.Text.Split

/-! The settings of the server as edited on the administration page. Durations are stored in
milliseconds and edited in the unit beside each field; checks apply to the edited values. -/
namespace FleetConsole

/-- The unit a duration is edited in. -/
inductive DisplayUnit
  | minutes | hours | days
  deriving DecidableEq, Repr

namespace DisplayUnit

def name : DisplayUnit → String
  | .minutes => "minutes"
  | .hours => "hours"
  | .days => "days"

def ofName? : String → Option DisplayUnit
  | "minutes" => some .minutes
  | "hours" => some .hours
  | "days" => some .days
  | _ => none

def millis : DisplayUnit → Int
  | .minutes => 60000
  | .hours => 3600000
  | .days => 86400000

/-- The product, or the nearest stored number. -/
def toMillis (u : DisplayUnit) (value : Int64) : Int64 := Int64.ofIntClamp (value.toInt * u.millis)

/-- Whole units only; what is left is dropped toward zero. -/
def ofMillis (u : DisplayUnit) (stored : Int64) : Int64 :=
  Int64.ofInt (stored.toInt.tdiv u.millis)

end DisplayUnit

structure SystemSettings where
  baseUrl : String
  agentMaxQuietTime : Int64
  sessionTimeout : Int64
  agentAutoUpdateEnabled : Bool
  debugModeEnabled : Bool
  loginWithoutRolesEnabled : Bool
  dataMaintenancePeriod : Int64
  availabilityPurge : Int64
  alertPurge : Int64
  traitPurge : Int64
  rtDataPurge : Int64
  eventPurge : Int64
  driftFilePurge : Int64
  dataReindexNightly : Bool
  baselineFrequency : Int64
  baselineDataset : Int64
  ldapGroupQueryPageSize : Int64
  httpProxyHost : Option String
  httpProxyPort : Int64
  deriving DecidableEq, Repr

/-- A field that holds a number. -/
inductive NumericSetting
  | agentMaxQuietTime | sessionTimeout | dataMaintenancePeriod | availabilityPurge | alertPurge
  | traitPurge | rtDataPurge | eventPurge | driftFilePurge | baselineFrequency | baselineDataset
  | ldapGroupQueryPageSize | httpProxyPort
  deriving DecidableEq, Repr

namespace NumericSetting

def all : List NumericSetting :=
  [.agentMaxQuietTime, .sessionTimeout, .dataMaintenancePeriod, .availabilityPurge, .alertPurge,
    .traitPurge, .rtDataPurge, .eventPurge, .driftFilePurge, .baselineFrequency, .baselineDataset,
    .ldapGroupQueryPageSize, .httpProxyPort]

def name : NumericSetting → String
  | .agentMaxQuietTime => "agentMaxQuietTimeAllowed"
  | .sessionTimeout => "sessionTimeout"
  | .dataMaintenancePeriod => "dataMaintenancePeriod"
  | .availabilityPurge => "availabilityPurge"
  | .alertPurge => "alertPurge"
  | .traitPurge => "traitPurge"
  | .rtDataPurge => "rtDataPurge"
  | .eventPurge => "eventPurge"
  | .driftFilePurge => "driftFilePurge"
  | .baselineFrequency => "baselineFrequency"
  | .baselineDataset => "baselineDataset"
  | .ldapGroupQueryPageSize => "ldapGroupQueryPageSize"
  | .httpProxyPort => "httpProxyPort"

/-- Counts have no unit and are edited as stored. -/
def unit? : NumericSetting → Option DisplayUnit
  | .agentMaxQuietTime => some .minutes
  | .sessionTimeout | .dataMaintenancePeriod => some .hours
  | .ldapGroupQueryPageSize | .httpProxyPort => none
  | _ => some .days

def least : NumericSetting → Int64
  | .agentMaxQuietTime => 3
  | .baselineFrequency | .httpProxyPort => 0
  | _ => 1

def greatest? : NumericSetting → Option Int64
  | .baselineDataset => some 14
  | .httpProxyPort => some 65535
  | _ => none

def ofName? (s : String) : Option NumericSetting := all.find? (·.name = s)

@[simp] theorem ofName?_name (f : NumericSetting) : ofName? f.name = some f := by
  cases f <;> decide

def stored (f : NumericSetting) (s : SystemSettings) : Int64 :=
  match f with
  | .agentMaxQuietTime => s.agentMaxQuietTime
  | .sessionTimeout => s.sessionTimeout
  | .dataMaintenancePeriod => s.dataMaintenancePeriod
  | .availabilityPurge => s.availabilityPurge
  | .alertPurge => s.alertPurge
  | .traitPurge => s.traitPurge
  | .rtDataPurge => s.rtDataPurge
  | .eventPurge => s.eventPurge
  | .driftFilePurge => s.driftFilePurge
  | .baselineFrequency => s.baselineFrequency
  | .baselineDataset => s.baselineDataset
  | .ldapGroupQueryPageSize => s.ldapGroupQueryPageSize
  | .httpProxyPort => s.httpProxyPort

def store (f : NumericSetting) (s : SystemSettings) (value : Int64) : SystemSettings :=
  match f with
  | .agentMaxQuietTime => { s with agentMaxQuietTime := value }
  | .sessionTimeout => { s with sessionTimeout := value }
  | .dataMaintenancePeriod => { s with dataMaintenancePeriod := value }
  | .availabilityPurge => { s with availabilityPurge := value }
  | .alertPurge => { s with alertPurge := value }
  | .traitPurge => { s with traitPurge := value }
  | .rtDataPurge => { s with rtDataPurge := value }
  | .eventPurge => { s with eventPurge := value }
  | .driftFilePurge => { s with driftFilePurge := value }
  | .baselineFrequency => { s with baselineFrequency := value }
  | .baselineDataset => { s with baselineDataset := value }
  | .ldapGroupQueryPageSize => { s with ldapGroupQueryPageSize := value }
  | .httpProxyPort => { s with httpProxyPort := value }

@[simp] theorem stored_store_self (f : NumericSetting) (s : SystemSettings) (value : Int64) :
    f.stored (f.store s value) = value := by cases f <;> rfl

theorem stored_store_of_ne {f g : NumericSetting} (h : f ≠ g) (s : SystemSettings)
    (value : Int64) : g.stored (f.store s value) = g.stored s := by
  cases f <;> cases g <;> first | rfl | exact absurd rfl h

/-- A stored number as it is edited. -/
def toDisplay (f : NumericSetting) (stored : Int64) : Int64 :=
  match f.unit? with
  | some u => u.ofMillis stored
  | none => stored

/-- An edited number as it is stored. -/
def ofDisplay (f : NumericSetting) (value : Int64) : Int64 :=
  match f.unit? with
  | some u => u.toMillis value
  | none => value

def display (f : NumericSetting) (s : SystemSettings) : Int64 := f.toDisplay (f.stored s)

def accepts (f : NumericSetting) (value : Int64) : Bool :=
  f.least ≤ value && f.greatest?.all fun greatest => value ≤ greatest

/-- What the form says about a number that is not accepted. -/
def rangeMessage (f : NumericSetting) : String :=
  match f.greatest? with
  | some greatest =>
    "must be between " ++ toString f.least.toInt ++ " and " ++ toString greatest.toInt
  | none => "must be at least " ++ toString f.least.toInt

end NumericSetting

structure FieldError where
  field : String
  message : String
  deriving DecidableEq, Repr

namespace SystemSettings

def initial : SystemSettings where
  baseUrl := "http://localhost:7080"
  agentMaxQuietTime := 5 * 60000
  sessionTimeout := 3600000
  agentAutoUpdateEnabled := true
  debugModeEnabled := false
  loginWithoutRolesEnabled := false
  dataMaintenancePeriod := 3600000
  availabilityPurge := 365 * 86400000
  alertPurge := 31 * 86400000
  traitPurge := 365 * 86400000
  rtDataPurge := 31 * 86400000
  eventPurge := 14 * 86400000
  driftFilePurge := 31 * 86400000
  dataReindexNightly := false
  baselineFrequency := 3 * 86400000
  baselineDataset := 7 * 86400000
  ldapGroupQueryPageSize := 1000
  httpProxyHost := none
  httpProxyPort := 0

def display? (s : SystemSettings) (name : String) : Option Int64 :=
  (NumericSetting.ofName? name).map (·.display s)

/-- Stores a number given in the unit of its field; whether it is in range is checked later. -/
def setDisplay (s : SystemSettings) (name : String) (value : Int64) :
    Except Fault SystemSettings :=
  match NumericSetting.ofName? name with
  | some f => .ok (f.store s (f.ofDisplay value))
  | none => .error (.invalid "Unknown system setting" ("no numeric setting named " ++ name))

def numericErrors (s : SystemSettings) : List FieldError :=
  (NumericSetting.all.filter fun f => !f.accepts (f.display s)).map fun f =>
    ⟨f.name, f.rangeMessage⟩

def baseUrlErrors (s : SystemSettings) : List FieldError :=
  let url := (Text.trim s.baseUrl).toList
  if "http://".toList.isPrefixOf url || "https://".toList.isPrefixOf url then []
  else [⟨"baseUrl", "must be an http or https URL"⟩]

def proxyHostErrors (s : SystemSettings) : List FieldError :=
  if s.httpProxyHost.any Text.isBlankText then [⟨"httpProxyHost", "must not be blank"⟩] else []

/-- Everything that keeps the settings from being saved. -/
def validate (s : SystemSettings) : List FieldError :=
  s.numericErrors ++ s.baseUrlErrors ++ s.proxyHostErrors

def canSave (s : SystemSettings) : Bool := s.validate.isEmpty

def ensureValid (s : SystemSettings) : Except Fault Unit :=
  if s.canSave then .ok ()
  else .error (.invalidWithCode "invalid_system_settings" "One or more system settings are invalid"
    ("invalid settings: " ++ Text.joinWith ", " (s.validate.map FieldError.field)))

end SystemSettings

end FleetConsole
