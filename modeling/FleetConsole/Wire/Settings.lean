import FleetConsole.Config
import FleetConsole.Settings
import FleetConsole.Wire.Models

/-! The settings of the server and its configuration in JSON. The durations among the settings stay
in milliseconds, as their members say. -/
namespace FleetConsole

namespace SystemSettings

private def number (name : String) : Json.Reader Int64 := .required name Json.toInt64?

private def flag (name : String) : Json.Reader Bool := .required name Json.toBool?

private def numberJson (n : Int64) : Json := .integer n.toInt

def members (s : SystemSettings) : List (String × Json) :=
  [("baseUrl", .text s.baseUrl), ("agentMaxQuietTimeMs", numberJson s.agentMaxQuietTime),
    ("sessionTimeoutMs", numberJson s.sessionTimeout),
    ("agentAutoUpdateEnabled", .bool s.agentAutoUpdateEnabled),
    ("debugModeEnabled", .bool s.debugModeEnabled),
    ("loginWithoutRolesEnabled", .bool s.loginWithoutRolesEnabled),
    ("dataMaintenancePeriodMs", numberJson s.dataMaintenancePeriod),
    ("availabilityPurgeMs", numberJson s.availabilityPurge),
    ("alertPurgeMs", numberJson s.alertPurge), ("traitPurgeMs", numberJson s.traitPurge),
    ("rtDataPurgeMs", numberJson s.rtDataPurge), ("eventPurgeMs", numberJson s.eventPurge),
    ("driftFilePurgeMs", numberJson s.driftFilePurge),
    ("dataReindexNightly", .bool s.dataReindexNightly),
    ("baselineFrequencyMs", numberJson s.baselineFrequency),
    ("baselineDatasetMs", numberJson s.baselineDataset),
    ("ldapGroupQueryPageSize", numberJson s.ldapGroupQueryPageSize),
    ("httpProxyHost", .ofOption .text s.httpProxyHost),
    ("httpProxyPort", numberJson s.httpProxyPort)]

def toJson (s : SystemSettings) : Json := .object s.members

def ofJson? : Json → Option SystemSettings := Json.Reader.run do
  return {
    baseUrl := ← .required "baseUrl" Json.toText?
    agentMaxQuietTime := ← number "agentMaxQuietTimeMs"
    sessionTimeout := ← number "sessionTimeoutMs"
    agentAutoUpdateEnabled := ← flag "agentAutoUpdateEnabled"
    debugModeEnabled := ← flag "debugModeEnabled"
    loginWithoutRolesEnabled := ← flag "loginWithoutRolesEnabled"
    dataMaintenancePeriod := ← number "dataMaintenancePeriodMs"
    availabilityPurge := ← number "availabilityPurgeMs"
    alertPurge := ← number "alertPurgeMs"
    traitPurge := ← number "traitPurgeMs"
    rtDataPurge := ← number "rtDataPurgeMs"
    eventPurge := ← number "eventPurgeMs"
    driftFilePurge := ← number "driftFilePurgeMs"
    dataReindexNightly := ← flag "dataReindexNightly"
    baselineFrequency := ← number "baselineFrequencyMs"
    baselineDataset := ← number "baselineDatasetMs"
    ldapGroupQueryPageSize := ← number "ldapGroupQueryPageSize"
    httpProxyHost := ← .optional "httpProxyHost" Json.toText?
    httpProxyPort := ← number "httpProxyPort" }

/-- Reads the settings given, and takes the others from `start`. -/
def overlay? (start : SystemSettings) : Json → Option SystemSettings
  | .null => some start
  | .object given => ofJson? (.object (given ++ start.members))
  | _ => none

end SystemSettings

def FieldError.toJson (e : FieldError) : Json :=
  .object [("field", .text e.field), ("message", .text e.message)]

/-- The form of a number on the page, with the value it shows. -/
def NumericSetting.toJson (s : SystemSettings) (f : NumericSetting) : Json :=
  .object [("name", .text f.name), ("unit", .ofOption (fun u => .text u.name) f.unit?),
    ("min", .integer f.least.toInt), ("max", .ofOption (fun n => .integer n.toInt) f.greatest?),
    ("value", .integer (f.display s).toInt)]

def ConsoleConfig.toJson (c : ConsoleConfig) : Json :=
  .object [("bind", .text c.bind.text), ("publicUrl", optionalText c.publicUrl),
    ("pageSize", .ofNat c.reportPageSize), ("channelCapacity", .ofNat c.reportChannelCapacity),
    ("databaseUrl", optionalText c.databaseUrl), ("seedDemo", .bool c.seedDemo),
    ("stream", .object [("pageSize", .ofNat c.streamOptions.pageSize),
      ("channelCapacity", .ofNat c.streamOptions.channelCapacity)]),
    ("isDefault", .bool (c = .initial))]

end FleetConsole
