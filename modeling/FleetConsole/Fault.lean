/-! What can go wrong when the console answers a request. A fault has a text for users, a code for
programs and a cause for the log. -/
namespace FleetConsole

inductive FaultKind
  | database | forbidden | invalidInput | notAcceptable | notFound | unknown
  deriving DecidableEq, Repr

namespace FaultKind

/-- The code of a fault that has none of its own. -/
def defaultCode : FaultKind → String
  | .database => "database_error"
  | .forbidden => "forbidden"
  | .invalidInput => "invalid_input"
  | .notAcceptable => "not_acceptable"
  | .notFound => "not_found"
  | .unknown => "unknown_error"

end FaultKind

/-- What lies behind a fault: a statement of this library, or an error of the database. -/
inductive Cause
  | stated (text : String)
  | reported (text : String)
  deriving DecidableEq, Repr

def Cause.text : Cause → String
  | .stated text | .reported text => text

structure Fault where
  kind : FaultKind
  code : String
  /-- Safe to show to users. -/
  summary : String
  cause : Cause
  deriving DecidableEq, Repr

namespace Fault

def ofKind (kind : FaultKind) (summary cause : String) : Fault :=
  ⟨kind, kind.defaultCode, summary, .stated cause⟩

def database (summary : String) (cause : Cause) : Fault :=
  ⟨.database, FaultKind.database.defaultCode, summary, cause⟩

def forbidden : String → String → Fault := ofKind .forbidden

def invalid : String → String → Fault := ofKind .invalidInput

/-- Invalid input with a code of its own. -/
def invalidWithCode (code summary cause : String) : Fault :=
  ⟨.invalidInput, code, summary, .stated cause⟩

def notAcceptable : String → String → Fault := ofKind .notAcceptable

def notFound : String → String → Fault := ofKind .notFound

def unknown : String → String → Fault := ofKind .unknown

/-- A fault whose summary is all there is to say. -/
def ofSummary (summary : String) : Fault := unknown summary summary

def isNotFound (f : Fault) : Bool := f.kind = .notFound

/-- The line written to the log. -/
def describe (f : Fault) : String := f.summary ++ " (" ++ f.code ++ "): " ++ f.cause.text

@[simp] theorem kind_ofKind (kind : FaultKind) (summary cause : String) :
    (ofKind kind summary cause).kind = kind := rfl

@[simp] theorem code_ofKind (kind : FaultKind) (summary cause : String) :
    (ofKind kind summary cause).code = kind.defaultCode := rfl

@[simp] theorem kind_invalidWithCode (code summary cause : String) :
    (invalidWithCode code summary cause).kind = .invalidInput := rfl

end Fault

end FleetConsole
