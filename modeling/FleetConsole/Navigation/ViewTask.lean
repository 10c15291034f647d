import FleetConsole.Navigation.Controller

/-! The task that owns a session. Requests wait in a queue; the task takes what is waiting,
carries out the newest of it and publishes the view. -/
namespace FleetConsole.Navigation

structure ViewTask (σ : Type) where
  session : Session σ
  /-- Requests not yet taken, oldest first. -/
  waiting : List NavigationRequest
  published : ViewState

namespace ViewTask

variable {σ : Type}

def start (session : Session σ) : ViewTask σ := ⟨session, [], .initial⟩

/-- A client puts a request at the end of the queue. -/
def send (t : ViewTask σ) (request : NavigationRequest) : ViewTask σ :=
  { t with waiting := t.waiting ++ [request] }

/-- The view of a request that failed. -/
def failedState (request : NavigationRequest) (e : Fault) : ViewState :=
  { ViewState.initial with path := request.path, error := some e.summary }

/-- The view of a request, failed or not; a failure is posted to the user. -/
def answer (src : EntitySource σ) (viewer : Viewer) (request : NavigationRequest)
    (s : Session σ) : ViewState × Session σ :=
  match s.navigate src viewer request with
  | (.ok state, s) => (state, s)
  | (.error e, s) => (failedState request e, s.post (.error e.summary e.cause.text))

/-- Takes the first `taken` requests and carries out the last of these. -/
def work (src : EntitySource σ) (viewer : Viewer) (taken : Nat) (t : ViewTask σ) : ViewTask σ :=
  match (t.waiting.take taken).getLast? with
  | none => t
  | some request =>
    let (state, session) := answer src viewer request t.session
    { session
      waiting := t.waiting.drop taken
      published := { state with generation := t.published.generation + 1 } }

/-- What a client is told once the task has ended. -/
def stoppedFault : Fault := .unknown "Navigation is no longer running" "channel closed"

end ViewTask

end FleetConsole.Navigation
