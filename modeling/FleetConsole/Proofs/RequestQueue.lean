import Mathlib
import FleetConsole.Navigation.ViewTask
import FleetConsole.Proofs.DetailViews

/-! What becomes of the requests that wait for the task: some are passed over for newer ones, and
none of those carried out is out of order, repeated or newer than what is published. -/
namespace FleetConsole.Navigation.ViewTask

variable {σ : Type} (src : EntitySource σ) (viewer : Viewer)

/-- What is published for a request that is carried out in a session. -/
def stateFor (request : NavigationRequest) (s : Session σ) (generation : Nat) : ViewState :=
  match (s.navigate src viewer request).1 with
  | .ok state => { state with generation }
  | .error e => { ViewState.initial with
      generation, path := request.path, error := some e.summary }

/-- The session that requests carried out one after the other leave. -/
def sessionAfter (requests : List NavigationRequest) (s : Session σ) : Session σ :=
  requests.foldl (fun s request => (answer src viewer request s).2) s

theorem answer_with_generation (request : NavigationRequest) (s : Session σ) (generation : Nat) :
    { (answer src viewer request s).1 with generation } =
      stateFor src viewer request s generation := by
  unfold answer stateFor
  cases s.navigate src viewer request with
  | mk result after => cases result <;> rfl

@[simp] theorem generation_stateFor (request : NavigationRequest) (s : Session σ)
    (generation : Nat) : (stateFor src viewer request s generation).generation = generation := by
  unfold stateFor
  split <;> rfl

@[simp] theorem sessionAfter_append_singleton (requests : List NavigationRequest)
    (request : NavigationRequest) (s : Session σ) :
    sessionAfter src viewer (requests ++ [request]) s =
      (answer src viewer request (sessionAfter src viewer requests s)).2 := by
  simp [sessionAfter]

/-- The task carries out the last of what it takes, and forgets the others. -/
theorem work_of_getLast? {t : ViewTask σ} {taken : Nat} {request : NavigationRequest}
    (h : (t.waiting.take taken).getLast? = some request) :
    t.work src viewer taken =
      { session := (answer src viewer request t.session).2
        waiting := t.waiting.drop taken
        published := stateFor src viewer request t.session (t.published.generation + 1) } := by
  simp only [work, h, answer_with_generation]

/-- What has happened at a queue. -/
structure History where
  /-- Every request that entered the queue, in its order. -/
  sent : List NavigationRequest
  carriedOut : List NavigationRequest
  published : List ViewState

namespace History

def empty : History := ⟨[], [], []⟩

def send (h : History) (request : NavigationRequest) : History :=
  { h with sent := h.sent ++ [request] }

def carryOut (h : History) (request : NavigationRequest) (state : ViewState) : History :=
  { h with carriedOut := h.carriedOut ++ [request], published := h.published ++ [state] }

end History

/-- The histories that lead to a task. At any time some client may send a request, or the task may
take one or more of the oldest that wait and carry out the last of these. -/
inductive Runs (session : Session σ) : History → ViewTask σ → Prop
  | start : Runs session .empty (.start session)
  | send {h : History} {t : ViewTask σ} (request : NavigationRequest) (run : Runs session h t) :
      Runs session (h.send request) (t.send request)
  | work {h : History} {t : ViewTask σ} (taken : Nat) {request : NavigationRequest}
      (run : Runs session h t) (hlast : (t.waiting.take taken).getLast? = some request) :
      Runs session (h.carryOut request (t.work src viewer taken).published)
        (t.work src viewer taken)

/-- The task while it gathers requests one by one: those it has taken are no longer in the queue,
and the last of them is still to be carried out. -/
structure Gathering (σ : Type) where
  task : ViewTask σ
  taken : List NavigationRequest

/-- How many requests the queue has room for. -/
def queueRoom : Nat := 16

namespace Gathering

/-- The task with all that it has not carried out in its queue. -/
def whole (g : Gathering σ) : ViewTask σ := { g.task with waiting := g.taken ++ g.task.waiting }

/-- The task once it has carried out the request that it took last. -/
def carryOut (g : Gathering σ) (request : NavigationRequest) : Gathering σ where
  task :=
    { g.task with
      session := (answer src viewer request g.task.session).2
      published :=
        stateFor src viewer request g.task.session (g.task.published.generation + 1) }
  taken := []

/-- The histories that lead to a task that gathers requests while clients go on sending, as far as
there is room. -/
inductive Runs (session : Session σ) : History → Gathering σ → Prop
  | start : Runs session .empty ⟨.start session, []⟩
  | send {h : History} {g : Gathering σ} (request : NavigationRequest) (run : Runs session h g)
      (hroom : g.task.waiting.length < queueRoom) :
      Runs session (h.send request) { g with task := g.task.send request }
  | take {h : History} {g : Gathering σ} {request : NavigationRequest}
      {rest : List NavigationRequest} (run : Runs session h g)
      (hwaiting : g.task.waiting = request :: rest) :
      Runs session h ⟨{ g.task with waiting := rest }, g.taken ++ [request]⟩
  | carryOut {h : History} {g : Gathering σ} {request : NavigationRequest}
      (run : Runs session h g) (hlast : g.taken.getLast? = some request) :
      Runs session (h.carryOut request (g.carryOut src viewer request).task.published)
        (g.carryOut src viewer request)

/-- Taking requests one by one, between those that clients send, comes to the same as taking them
all at once. -/
theorem runs_whole {session : Session σ} {h : History} {g : Gathering σ}
    (run : Runs src viewer session h g) : ViewTask.Runs src viewer session h g.whole := by
  induction run with
  | start => exact .start
  | @send h g request _ _ ih =>
    have hsend : whole { g with task := g.task.send request } = g.whole.send request := by
      simp [whole, ViewTask.send]
    rw [hsend]
    exact ih.send request
  | @take h g request rest _ hwaiting ih =>
    have htake : whole ⟨{ g.task with waiting := rest }, g.taken ++ [request]⟩ = g.whole := by
      simp [whole, hwaiting]
    rw [htake]
    exact ih
  | @carryOut h g request _ hlast ih =>
    have htaken : (g.whole.waiting.take g.taken.length).getLast? = some request := by
      simpa [whole] using hlast
    have hwork := work_of_getLast? src viewer htaken
    have hrun := ih.work _ htaken
    rw [hwork] at hrun
    simpa [whole, carryOut] using hrun

end Gathering

/-- Each request is gone from the queue or waits in it, and the last one gone was carried out. -/
structure QueueKept (h : History) (t : ViewTask σ) (gone : List NavigationRequest) : Prop where
  sent_eq : h.sent = gone ++ t.waiting
  sublist : h.carriedOut.Sublist gone
  getLast?_eq : h.carriedOut.getLast? = gone.getLast?

theorem QueueKept.work {h : History} {t : ViewTask σ} {gone : List NavigationRequest}
    (hkept : QueueKept h t gone) {taken : Nat} {request : NavigationRequest}
    (hlast : (t.waiting.take taken).getLast? = some request) (state : ViewState) :
    QueueKept (h.carryOut request state) (t.work src viewer taken)
      (gone ++ t.waiting.take taken) := by
  have hmem : request ∈ t.waiting.take taken := List.mem_of_getLast? hlast
  refine ⟨?_, ?_, ?_⟩
  · simp [work_of_getLast? src viewer hlast, History.carryOut, hkept.sent_eq]
  · exact hkept.sublist.append (List.singleton_sublist.mpr hmem)
  · simp [History.carryOut, List.getLast?_append, hlast]

theorem exists_queueKept {session : Session σ} {h : History} {t : ViewTask σ}
    (run : Runs src viewer session h t) : ∃ gone, QueueKept h t gone := by
  induction run with
  | start => exact ⟨[], rfl, List.Sublist.refl _, rfl⟩
  | send request _ ih =>
    obtain ⟨gone, hkept⟩ := ih
    refine ⟨gone, ?_, hkept.sublist, hkept.getLast?_eq⟩
    simp [History.send, ViewTask.send, hkept.sent_eq]
  | work _ _ hlast ih =>
    obtain ⟨gone, hkept⟩ := ih
    exact ⟨_, hkept.work src viewer hlast _⟩

/-- What is published are the answers to the requests carried out, each in the session that the
ones before left, and the task goes on from there. -/
structure AnswersKept (session : Session σ) (h : History) (t : ViewTask σ) : Prop where
  session_eq : t.session = sessionAfter src viewer h.carriedOut session
  generation_eq : t.published.generation = h.carriedOut.length
  length_eq : h.published.length = h.carriedOut.length
  getElem?_eq : ∀ k request, h.carriedOut[k]? = some request → h.published[k]? =
    some (stateFor src viewer request (sessionAfter src viewer (h.carriedOut.take k) session)
      (k + 1))
  newest_eq : h.published ≠ [] → h.published.getLast? = some t.published

theorem AnswersKept.work {session : Session σ} {h : History} {t : ViewTask σ}
    (hkept : AnswersKept src viewer session h t) {taken : Nat} {request : NavigationRequest}
    (hlast : (t.waiting.take taken).getLast? = some request) :
    AnswersKept src viewer session (h.carryOut request (t.work src viewer taken).published)
      (t.work src viewer taken) := by
  have hlength := hkept.length_eq
  rw [work_of_getLast? src viewer hlast]
  refine ⟨?_, ?_, ?_, fun k asked hasked => ?_, fun _ => ?_⟩
  · simp [History.carryOut, hkept.session_eq]
  · simp [History.carryOut, hkept.generation_eq]
  · simp [History.carryOut, hkept.length_eq]
  · simp only [History.carryOut] at hasked ⊢
    obtain hk | hk := Nat.lt_or_ge k h.carriedOut.length
    · rw [List.getElem?_append_left hk] at hasked
      rw [List.getElem?_append_left (by omega), List.take_append_of_le_length (by omega)]
      exact hkept.getElem?_eq k asked hasked
    · obtain ⟨hk, rfl⟩ : k - h.carriedOut.length = 0 ∧ request = asked := by
        rw [List.getElem?_append_right hk, List.getElem?_singleton] at hasked
        split at hasked
        · exact ⟨‹_›, Option.some.inj hasked⟩
        · simp at hasked
      obtain rfl : k = h.carriedOut.length := by omega
      rw [List.getElem?_append_right (by omega), hlength, Nat.sub_self, List.take_left,
        ← hkept.session_eq, hkept.generation_eq]
      rfl
  · simp [History.carryOut]

theorem answersKept {session : Session σ} {h : History} {t : ViewTask σ}
    (run : Runs src viewer session h t) : AnswersKept src viewer session h t := by
  induction run with
  | start => exact ⟨rfl, rfl, rfl, by simp [History.empty], by simp [History.empty]⟩
  | send request _ ih =>
    exact ⟨ih.session_eq, ih.generation_eq, ih.length_eq, ih.getElem?_eq, ih.newest_eq⟩
  | work _ _ hlast ih => exact ih.work src viewer hlast

theorem AnswersKept.generations {session : Session σ} {h : History} {t : ViewTask σ}
    (hkept : AnswersKept src viewer session h t) :
    h.published.map ViewState.generation = List.range' 1 h.published.length := by
  refine List.ext_getElem (by simp) fun k hk _ => ?_
  have hcarried : k < h.carriedOut.length := by simpa [hkept.length_eq] using hk
  have hstate := hkept.getElem?_eq k _ (List.getElem?_eq_getElem hcarried)
  obtain ⟨_, hstate⟩ := List.getElem?_eq_some_iff.mp hstate
  rw [List.getElem_map, hstate, generation_stateFor, List.getElem_range']
  omega

theorem length_published_le {session : Session σ} {h : History} {t : ViewTask σ}
    (run : Runs src viewer session h t) : h.published.length ≤ h.sent.length := by
  obtain ⟨gone, hqueue⟩ := exists_queueKept src viewer run
  rw [(answersKept src viewer run).length_eq, hqueue.sent_eq, List.length_append]
  exact Nat.le_add_right_of_le hqueue.sublist.length_le

/-- The count has room in 64 bits unless there are more requests than that. -/
theorem generation_lt {session : Session σ} {h : History} {t : ViewTask σ}
    (run : Runs src viewer session h t) (hsent : h.sent.length < 2 ^ 64) :
    ∀ state ∈ h.published, state.generation < 2 ^ 64 := by
  intro state hmem
  have hgeneration : state.generation ∈ h.published.map ViewState.generation :=
    List.mem_map_of_mem hmem
  rw [(answersKept src viewer run).generations, List.mem_range'_1] at hgeneration
  have hlength := length_published_le src viewer run
  omega

/-- However the requests of clients and the work of the task follow each other: what is published
is counted one by one; it answers some of the requests, in their order and each once, in the session
that the answers before left; and when nothing waits any more, it is the answer to the newest. -/
theorem published_answers_newest {session : Session σ} {h : History} {t : ViewTask σ}
    (run : Runs src viewer session h t) :
    (h.published.map ViewState.generation = List.range' 1 h.published.length ∧
      h.published.length ≤ h.sent.length) ∧
    (h.carriedOut.Sublist h.sent ∧ h.published.length = h.carriedOut.length ∧
      ∀ k request, h.carriedOut[k]? = some request → h.published[k]? =
        some (stateFor src viewer request
          (sessionAfter src viewer (h.carriedOut.take k) session) (k + 1))) ∧
    (t.waiting = [] → ∀ newest, h.sent.getLast? = some newest →
      h.carriedOut.getLast? = some newest ∧ h.published.getLast? = some t.published ∧
        t.published = stateFor src viewer newest
          (sessionAfter src viewer h.carriedOut.dropLast session) h.carriedOut.length) := by
  obtain ⟨gone, hqueue⟩ := exists_queueKept src viewer run
  have hanswers := answersKept src viewer run
  have hsublist : h.carriedOut.Sublist h.sent := by
    rw [hqueue.sent_eq]
    exact hqueue.sublist.trans (List.sublist_append_left _ _)
  refine ⟨⟨hanswers.generations, length_published_le src viewer run⟩,
    ⟨hsublist, hanswers.length_eq, hanswers.getElem?_eq⟩, fun hempty newest hnewest => ?_⟩
  have hlast : h.carriedOut.getLast? = some newest := by
    rw [hqueue.getLast?_eq, ← hnewest, hqueue.sent_eq, hempty, List.append_nil]
  have hcarried : h.carriedOut[h.carriedOut.length - 1]? = some newest := by
    rw [← List.getLast?_eq_getElem?, hlast]
  have hpos : 0 < h.carriedOut.length := by
    by_contra hzero
    simp [List.length_eq_zero_iff.mp (Nat.eq_zero_of_not_pos hzero)] at hlast
  have hne : h.published ≠ [] := by
    rw [← List.length_pos_iff, hanswers.length_eq]
    exact hpos
  have hpublished := hanswers.newest_eq hne
  have hstate := hanswers.getElem?_eq _ _ hcarried
  rw [← hanswers.length_eq, ← List.getLast?_eq_getElem?, hpublished, hanswers.length_eq,
    ← List.dropLast_eq_take, Nat.sub_add_cancel hpos] at hstate
  exact ⟨hlast, hpublished, Option.some.inj hstate⟩

end FleetConsole.Navigation.ViewTask

namespace FleetConsole.Navigation.Burst

open Vanishing ViewTask

def requests : List NavigationRequest :=
  [⟨"ResourceGroup/7", false⟩, ⟨"ResourceGroup/8", false⟩, ⟨"ResourceGroup/seven", false⟩,
    ⟨"ResourceGroup/7/Events", false⟩]

def view : DetailView := ⟨⟨.group ⟨7⟩, some "Events", none⟩, .group group, none⟩

/-- The second request comes while the first is carried out, the third and the fourth while the task
gathers what waits. -/
theorem exists_runs : ∃ h t, Runs source viewer (.start true) h t ∧ t.waiting = [] ∧
    h.sent = requests ∧ h.carriedOut = [requests[0], requests[3]] := by
  have first : Gathering.Runs source viewer (.start true) _ _ :=
    ((Gathering.Runs.start.send requests[0] (by decide)).take rfl).send requests[1] (by decide)
  have gathered := (((first.carryOut rfl).take rfl).send requests[2] (by decide)).take rfl
  have second := ((gathered.send requests[3] (by decide)).take rfl).carryOut rfl
  exact ⟨_, _, Gathering.runs_whole source viewer second, rfl, rfl, rfl⟩

/-- Only the newest of these three is answered, from what is shown already. -/
theorem published_answers_newest_burst : ∃ h t, Runs source viewer (.start true) h t ∧
    h.sent = requests ∧ t.published = { ViewState.initial with
      generation := 2, path := "ResourceGroup/7/Events", title := "RHQ: ResourceGroup | Events"
      route := some .resourceGroup, detail := some view } := by
  obtain ⟨h, t, run, hempty, hsent, hcarried⟩ := exists_runs
  obtain ⟨-, -, hnewest⟩ := published_answers_newest source viewer run
  obtain ⟨-, -, hpublished⟩ := hnewest hempty requests[3] (by rw [hsent]; rfl)
  refine ⟨h, t, run, hsent, ?_⟩
  rw [hpublished, hcarried]
  cbv

end FleetConsole.Navigation.Burst
