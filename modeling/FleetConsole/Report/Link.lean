import FleetConsole.Id
import FleetConsole.Text.Blank

/-! Links from a report back into the console. -/
namespace FleetConsole.Report

/-- Scheme and host of the console, without a slash at the end. -/
structure LinkBase where
  url : String
  deriving DecidableEq, Repr

namespace LinkBase

def ofUrl (url : String) : LinkBase :=
  ⟨String.ofList (Text.dropTrailing (· = '/') url.toList)⟩

def ofHost (secure : Bool) (host : String) : LinkBase :=
  ofUrl ((if secure then "https" else "http") ++ "://" ++ host)

def consoleUrl (b : LinkBase) : String := b.url ++ "/coregui"

/-- The address of a view of the console. -/
def detailUrl (b : LinkBase) (viewPath : String) : String := b.consoleUrl ++ "/#" ++ viewPath

/-- The path of a view of a resource; `suffix` names its tabs. -/
def resourcePath (id : ResourceId) (suffix : String) : String :=
  if suffix = "" then "Resource/" ++ id.text else "Resource/" ++ id.text ++ "/" ++ suffix

def resourceUrl (b : LinkBase) (id : ResourceId) (suffix : String) : String :=
  b.detailUrl (resourcePath id suffix)

end LinkBase

end FleetConsole.Report
