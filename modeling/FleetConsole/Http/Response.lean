import FleetConsole.Json
import FleetConsole.Report.Stream

/-! What the console answers to a request. -/
namespace FleetConsole.Http

inductive Body
  | empty
  | text (s : String)
  | json (j : Json)
  | report (output : Report.Output)
  /-- Says that the parameters cannot be read, in words that are not the console's own. -/
  | rejection

structure Response where
  status : Nat
  contentType : Option String
  body : Body

namespace Response

def ok (contentType : String) (body : Body) : Response := ⟨200, some contentType, body⟩

def ofJson (j : Json) : Response := ok "application/json" (.json j)

/-- An answer without content. -/
def bare (status : Nat) : Response := ⟨status, none, .empty⟩

def notFound : Response := bare 404

def methodNotAllowed : Response := bare 405

def plainText : String := "text/plain; charset=utf-8"

def rejected : Response := ⟨400, some plainText, .rejection⟩

/-- The answer to a request for headers alone. -/
def withoutBody (r : Response) : Response := { r with body := .empty }

end Response

def statusOf : FaultKind → Nat
  | .database | .unknown => 500
  | .forbidden => 403
  | .invalidInput => 400
  | .notAcceptable => 406
  | .notFound => 404

/-- A fault is told by its summary; its cause stays in the log. -/
def Response.ofFault (e : Fault) : Response :=
  ⟨statusOf e.kind, some Response.plainText, .text e.summary⟩

end FleetConsole.Http
