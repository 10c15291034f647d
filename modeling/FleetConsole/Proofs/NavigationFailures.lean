import Mathlib
import FleetConsole.Proofs.NavigationHistory

/-! How navigation ends. A request that is refused leaves everything as it was; an entity that
cannot be shown leads to the inventory, with one warning and nothing left of the view; and no
request is led on more than once. -/
namespace FleetConsole.Navigation

theorem Route.kind_of_authorize {route : Route} {granted : List Permission} {e : Fault}
    (h : route.authorize granted = .error e) : e.kind = .forbidden := by
  unfold authorize at h
  split at h
  · exact Permission.kind_of_ensureAny h
  · simp at h

theorem DetailFamily.kind_of_readEntity {f : DetailFamily} {hidden : Bool} {segment : String}
    {p : ViewPath} {e : Fault} (h : (f.readEntity hidden segment p).1 = .error e) :
    e.kind = .invalidInput := by
  unfold readEntity at h
  split at h
  · rw [← Except.error.inj h]
    rfl
  · simp at h

theorem DetailFamily.kind_of_readTarget {f : DetailFamily} {p : ViewPath} {e : Fault}
    (h : (f.readTarget p).1 = .error e) : e.kind = .invalidInput := by
  unfold readTarget at h
  split at h
  · simp at h
  · simp only at h
    split at h
    · split at h
      · simp at h
      · exact kind_of_readEntity h
    · exact kind_of_readEntity h

theorem Route.refresh_readAdministration (p : ViewPath) :
    (readAdministration p).2.refresh = p.refresh := by
  unfold readAdministration
  split
  · rfl
  · simp only
    split
    · simp
    · split <;> simp

theorem Route.refresh_read (p : ViewPath) : (read p).2.refresh = p.refresh := by
  unfold read
  split <;> simp [refresh_readAdministration]

@[simp] theorem refresh_readToken (token : String) (refresh : Bool) :
    (readToken token refresh).2.refresh = refresh := by
  rw [readToken, Route.refresh_read]
  rfl

theorem route_of_redirect {path : String} (h : path = defaultView ∨ path = inventoryView)
    (refresh : Bool) :
    (readToken path refresh).1 = .dashboards ∨ (readToken path refresh).1 = .inventory := by
  rcases h with rfl | rfl <;> cases refresh
  · exact .inl (by cbv)
  · exact .inl (by cbv)
  · exact .inr (by cbv)
  · exact .inr (by cbv)

theorem ViewState.exists_after_eq_view (state : ViewState) {outcome : DetailOutcome}
    (h : ∀ path, outcome ≠ .redirect path) : ∃ shown, state.after outcome = .view shown := by
  cases outcome with
  | landing | loaded | tabSelected => exact ⟨_, rfl⟩
  | redirect path => exact absurd rfl (h path)

theorem ViewState.eq_of_after_eq_view {state shown : ViewState} {outcome : DetailOutcome}
    (h : state.after outcome = .view shown) :
    ∃ detail reloaded, shown = { state with detail, reloaded } := by
  cases outcome with
  | landing | loaded | tabSelected => exact ⟨_, _, (Step.view.inj h).symm⟩
  | redirect path => cases h

theorem Details.loaded_dropped (d : Details) (family : DetailFamily) :
    ((d.dropped family).navigator family).loaded = none := by
  cases family <;> rfl

namespace EntitySource

variable {σ : Type}

/-- A target that cannot be shown, with what the user is told and what lies behind the source after
the lookups: the entity or its type is missing, or one of the lookups fails. -/
inductive Unloadable (src : EntitySource σ) (target : DetailTarget) (state : σ) :
    String → σ → Prop
  | fetchFails {e : Fault} {after : σ}
      (hfetch : src.fetch target.entity state = (.error e, after)) :
      Unloadable src target state e.describe after
  | missing {after : σ} (hfetch : src.fetch target.entity state = (.ok none, after)) :
      Unloadable src target state
        (target.entity.noun ++ " with id [" ++ idText target.entity.rawId ++ "] does not exist.")
        after
  | typeFails {found : LoadedEntity} {typeId : TypeId} {e : Fault} {between after : σ}
      (hfetch : src.fetch target.entity state = (.ok (some found), between))
      (htype : found.typeId? = some typeId)
      (hfails : src.resourceType typeId between = (.error e, after)) :
      Unloadable src target state e.describe after
  | typeMissing {found : LoadedEntity} {typeId : TypeId} {between after : σ}
      (hfetch : src.fetch target.entity state = (.ok (some found), between))
      (htype : found.typeId? = some typeId)
      (hmissing : src.resourceType typeId between = (.ok none, after)) :
      Unloadable src target state ("Resource type [" ++ typeId.text ++ "] does not exist.") after

variable (src : EntitySource σ)

theorem loadView_of_unloadable {target : DetailTarget} {state after : σ} {reason : String}
    (h : src.Unloadable target state reason after) :
    src.loadView target state = (.error reason, after) := by
  cases h with
  | fetchFails hfetch | missing hfetch => simp only [loadView, hfetch]
  | typeFails hfetch htype hfails => simp only [loadView, hfetch, htype, hfails]
  | typeMissing hfetch htype hmissing => simp only [loadView, hfetch, htype, hmissing]

theorem unloadable_of_loadView {target : DetailTarget} {state after : σ} {reason : String}
    (h : src.loadView target state = (.error reason, after)) :
    src.Unloadable target state reason after := by
  unfold loadView at h
  simp only at h
  split at h
  · obtain ⟨rfl, rfl⟩ := by simpa using h
    exact .fetchFails ‹_›
  · obtain ⟨rfl, rfl⟩ := by simpa using h
    exact .missing ‹_›
  · split at h
    · simp at h
    · split at h
      · obtain ⟨rfl, rfl⟩ := by simpa using h
        exact .typeFails ‹_› ‹_› ‹_›
      · obtain ⟨rfl, rfl⟩ := by simpa using h
        exact .typeMissing ‹_› ‹_› ‹_›
      · simp at h

/-- Only lookups lead to a target that cannot be shown. -/
theorem unloadable_traced {target : DetailTarget} {state after : σ} {reason : String}
    (h : src.Unloadable target state reason after) :
    ∃ calls : List SourceCall, (∀ call ∈ calls, call.isLookup) ∧
      src.traced.Unloadable target ([], state) reason (calls, after) := by
  have hlookup : (fetchCall target.entity).isLookup := by cases target.entity <;> rfl
  have hfetched := src.fetch_traced target.entity [] state
  cases h with
  | fetchFails hfetch =>
    rw [hfetch] at hfetched
    exact ⟨[fetchCall target.entity], by simpa using hlookup, .fetchFails hfetched⟩
  | missing hfetch =>
    rw [hfetch] at hfetched
    exact ⟨[fetchCall target.entity], by simpa using hlookup, .missing hfetched⟩
  | @typeFails _ typeId _ _ _ hfetch htype hfails =>
    rw [hfetch] at hfetched
    refine ⟨[fetchCall target.entity, .resourceType typeId], ?_, .typeFails hfetched htype ?_⟩
    · simpa [SourceCall.isLookup] using hlookup
    · simp [traced, hfails]
  | @typeMissing _ typeId _ _ hfetch htype hmissing =>
    rw [hfetch] at hfetched
    refine ⟨[fetchCall target.entity, .resourceType typeId], ?_, .typeMissing hfetched htype ?_⟩
    · simpa [SourceCall.isLookup] using hlookup
    · simp [traced, hmissing]

end EntitySource

namespace Session

variable {σ : Type} (src : EntitySource σ) (viewer : Viewer)

/-- The request names an entity that has to be loaded and cannot be. -/
structure LoadFails (s : Session σ) (request : NavigationRequest) (target : DetailTarget)
    (reason : String) (source : σ) : Prop where
  target_eq : request.target? = some target
  not_kept : ¬s.details.Keeps target.entity.family target request.refresh
  unloadable : src.Unloadable target s.source reason source

/-- The session after an entity could not be shown: nothing of its family is loaded, nothing is
shown, and the user is warned. -/
def warned (s : Session σ) (target : DetailTarget) (reason : String) (source : σ) : Session σ :=
  ⟨s.details.dropped target.entity.family, s.posted ++ [loadFailure target.entity reason], source⟩

/-- A rendering comes to an end in so many renderings, as redirects lead on. -/
inductive Renders (refresh : Bool) :
    Nat → String → Session σ → Except Fault ViewState × Session σ → Prop
  | refused {token : String} {s after : Session σ} {e : Fault}
      (h : render src viewer token refresh s = (.error e, after)) :
      Renders refresh 1 token s (.error e, after)
  | shown {token : String} {s after : Session σ} {state : ViewState}
      (h : render src viewer token refresh s = (.ok (.view state), after)) :
      Renders refresh 1 token s (.ok state, after)
  | led {token path : String} {s between : Session σ} {count : Nat}
      {answer : Except Fault ViewState × Session σ}
      (h : render src viewer token refresh s = (.ok (.redirect path), between))
      (next : Renders refresh count path between answer) :
      Renders refresh (count + 1) token s answer

theorem follow_of_renders {refresh : Bool} {count : Nat} {token : String} {s : Session σ}
    {answer : Except Fault ViewState × Session σ}
    (h : Renders src viewer refresh count token s answer) {renderings : Nat}
    (hcount : count ≤ renderings) : follow src viewer refresh renderings token s = answer := by
  induction h generalizing renderings with
  | refused h | shown h =>
    obtain ⟨renderings, rfl⟩ := Nat.exists_eq_add_of_le' hcount
    simp only [follow, h]
  | led h _ ih =>
    obtain ⟨renderings, rfl⟩ := Nat.exists_eq_add_of_le' (Nat.le_of_add_left_le hcount)
    simp only [follow, h]
    exact ih (by omega)

/-- Where redirects lead, there is nothing more to load. -/
theorem render_of_redirect {path : String} (hpath : path = defaultView ∨ path = inventoryView)
    (refresh : Bool) (s : Session σ) :
    render src viewer path refresh s = (.ok (.view (blankView viewer path refresh)), s) := by
  rcases route_of_redirect hpath refresh with hroute | hroute <;>
    rw [render_of_authorized src viewer (by rw [hroute]; rfl), hroute] <;> rfl

/-- A target is shown without a word to the user, or it cannot be loaded. -/
theorem present_outcome (target : DetailTarget) (refresh : Bool) (s : Session σ) :
    (∃ outcome after, present src target.entity.family target refresh s = (outcome, after) ∧
      (∀ path, outcome ≠ .redirect path) ∧ after.posted = s.posted) ∨
    ¬s.details.Keeps target.entity.family target refresh ∧
      ∃ reason source, src.Unloadable target s.source reason source := by
  by_cases hkeeps : s.details.Keeps target.entity.family target refresh
  · obtain ⟨rfl, hloaded, view, hview, hentity⟩ := hkeeps
    exact .inl ⟨_, _, present_of_loaded src hloaded hview hentity, by simp, rfl⟩
  · rw [present_of_not_keeps src hkeeps]
    cases hload : src.loadView target s.source with
    | mk result source =>
      cases result with
      | error reason => exact .inr ⟨hkeeps, reason, source, src.unloadable_of_loadView hload⟩
      | ok view =>
        have hloaded : load src target.entity.family target s =
            (.loaded view, { s with
              details := s.details.shown target.entity.family view
              source := src.recordVisit target.entity source }) := by
          simp only [load, hload]
        exact .inl ⟨_, _, hloaded, by simp, rfl⟩

theorem showDetail_outcome (family : DetailFamily) (p : ViewPath) (s : Session σ) :
    (∃ e rest, showDetail src family p s = (.error e, rest, s) ∧ e.kind = .invalidInput) ∨
    (∃ outcome rest after, showDetail src family p s = (.ok outcome, rest, after) ∧
      (∀ path, outcome ≠ .redirect path) ∧ after.posted = s.posted) ∨
    ∃ target, (family.readTarget p).1 = .ok (some target) ∧
      ¬s.details.Keeps target.entity.family target p.refresh ∧
      ∃ reason source, src.Unloadable target s.source reason source := by
  cases hread : (family.readTarget p).1 with
  | error e =>
    rw [showDetail_of_no_target src (by simp [hread]), hread]
    exact .inl ⟨e, _, rfl, DetailFamily.kind_of_readTarget hread⟩
  | ok found =>
    cases found with
    | none =>
      rw [showDetail_of_no_target src (by simp [hread]), hread]
      exact .inr (.inl ⟨_, _, s, rfl, by simp, rfl⟩)
    | some target =>
      rw [showDetail_of_target src hread]
      obtain ⟨outcome, after, hpresent, hstays, hposted⟩ | hfails :=
        present_outcome src target p.refresh s
      · rw [hpresent]
        exact .inr (.inl ⟨outcome, _, after, rfl, hstays, hposted⟩)
      · exact .inr (.inr ⟨target, rfl, hfails⟩)

theorem render_of_loadFails {s : Session σ} {request : NavigationRequest} {target : DetailTarget}
    {reason : String} {source : σ} (h : LoadFails src s request target reason source) :
    render src viewer request.path request.refresh s =
      (.ok (.redirect inventoryView), s.warned target reason source) := by
  obtain ⟨family, hfamily, hread⟩ := NavigationRequest.target?_eq_some_iff.mp h.target_eq
  have hload := src.loadView_of_unloadable h.unloadable
  rw [render_of_authorized src viewer (Route.authorize_of_family hfamily viewer.granted),
    renderRoute_of_family src hfamily, showDetail_of_target src hread, refresh_readToken,
    present_of_not_keeps src h.not_kept]
  simp only [load, hload]
  rfl

/-- Everything that a rendering can come to: a refusal that changes nothing, a way on to the default
view, a view without a word to the user, or an entity that cannot be loaded. -/
theorem render_outcome (request : NavigationRequest) (s : Session σ) :
    (∃ e : Fault, (e.kind = .forbidden ∨ e.kind = .invalidInput) ∧
      render src viewer request.path request.refresh s = (.error e, s)) ∨
    render src viewer request.path request.refresh s = (.ok (.redirect defaultView), s) ∨
    (∃ state after, render src viewer request.path request.refresh s =
      (.ok (.view state), after) ∧ after.posted = s.posted) ∨
    ∃ target reason source, LoadFails src s request target reason source := by
  cases hauthorized : (readToken request.path request.refresh).1.authorize viewer.granted with
  | error e =>
    exact .inl ⟨e, .inl (Route.kind_of_authorize hauthorized),
      render_of_refused src viewer hauthorized s⟩
  | ok _ =>
    rw [render_of_authorized src viewer hauthorized]
    by_cases hdefault : (readToken request.path request.refresh).1 = .default
    · rw [hdefault]
      exact .inr (.inl rfl)
    · cases hfamily : (readToken request.path request.refresh).1.detailFamily? with
      | none =>
        rw [renderRoute_of_no_family src hfamily hdefault]
        exact .inr (.inr (.inl ⟨_, _, rfl, rfl⟩))
      | some family =>
        rw [renderRoute_of_family src hfamily]
        obtain ⟨e, rest, hshown, hkind⟩ | ⟨outcome, rest, after, hshown, hstays, hposted⟩ |
            ⟨target, hread, hkeeps, reason, source, hfails⟩ :=
          showDetail_outcome src family (readToken request.path request.refresh).2 s
        · rw [hshown]
          exact .inl ⟨e, .inr hkind, rfl⟩
        · obtain ⟨state, hstate⟩ := ViewState.exists_after_eq_view
            (blankView viewer request.path request.refresh) hstays
          rw [hshown, Except.map, hstate]
          exact .inr (.inr (.inl ⟨state, after, rfl, hposted⟩))
        · rw [refresh_readToken] at hkeeps
          exact .inr (.inr (.inr ⟨target, reason, source,
            NavigationRequest.target?_eq_some_iff.mpr ⟨family, hfamily, hread⟩, hkeeps, hfails⟩))

theorem navigate_of_renders {count : Nat} {request : NavigationRequest} {s : Session σ}
    {answer : Except Fault ViewState × Session σ}
    (h : Renders src viewer request.refresh count request.path s answer) (hcount : count ≤ 2) :
    navigate src viewer request s = answer := by
  rw [navigate]
  exact follow_of_renders src viewer h (by omega)

theorem renders_of_loadFails {s : Session σ} {request : NavigationRequest} {target : DetailTarget}
    {reason : String} {source : σ} (h : LoadFails src s request target reason source) :
    Renders src viewer request.refresh 2 request.path s
      (.ok (blankView viewer inventoryView request.refresh), s.warned target reason source) :=
  .led (render_of_loadFails src viewer h)
    (.shown (render_of_redirect src viewer (.inr rfl) request.refresh _))

theorem navigate_of_loadFails {s : Session σ} {request : NavigationRequest} {target : DetailTarget}
    {reason : String} {source : σ} (h : LoadFails src s request target reason source) :
    navigate src viewer request s =
      (.ok (blankView viewer inventoryView request.refresh), s.warned target reason source) :=
  navigate_of_renders src viewer (renders_of_loadFails src viewer h) (Nat.le_refl 2)

theorem navigate_outcome (request : NavigationRequest) (s : Session σ) :
    ∃ count answer, count ≤ 2 ∧
      Renders src viewer request.refresh count request.path s answer ∧
      ((∃ e : Fault, (e.kind = .forbidden ∨ e.kind = .invalidInput) ∧ answer = (.error e, s)) ∨
        (∃ state after, answer = (.ok state, after) ∧ after.posted = s.posted) ∨
        ∃ target reason source, LoadFails src s request target reason source) := by
  obtain ⟨e, hkind, hrender⟩ | hrender | ⟨state, after, hrender, hposted⟩ | hfails :=
    render_outcome src viewer request s
  · exact ⟨1, _, by omega, .refused hrender, .inl ⟨e, hkind, rfl⟩⟩
  · exact ⟨2, _, by omega, .led hrender
      (.shown (render_of_redirect src viewer (.inl rfl) request.refresh s)),
      .inr (.inl ⟨_, _, rfl, rfl⟩)⟩
  · exact ⟨1, _, by omega, .shown hrender, .inr (.inl ⟨state, after, rfl, hposted⟩)⟩
  · obtain ⟨target, reason, source, h⟩ := hfails
    exact ⟨2, _, by omega, renders_of_loadFails src viewer h,
      .inr (.inr ⟨target, reason, source, h⟩)⟩

theorem exists_renders (request : NavigationRequest) (s : Session σ) :
    ∃ count ≤ 2, Renders src viewer request.refresh count request.path s
      (navigate src viewer request s) := by
  obtain ⟨count, answer, hcount, hrenders, -⟩ := navigate_outcome src viewer request s
  rw [navigate_of_renders src viewer hrenders hcount]
  exact ⟨count, hcount, hrenders⟩

theorem navigate_cases (request : NavigationRequest) (s : Session σ) :
    (∃ e : Fault, (e.kind = .forbidden ∨ e.kind = .invalidInput) ∧
      navigate src viewer request s = (.error e, s)) ∨
    (∃ state after, navigate src viewer request s = (.ok state, after) ∧
      after.posted = s.posted) ∨
    ∃ target reason source, LoadFails src s request target reason source := by
  obtain ⟨count, answer, hcount, hrenders, hanswer⟩ := navigate_outcome src viewer request s
  rw [navigate_of_renders src viewer hrenders hcount]
  exact hanswer

theorem refused_of_navigate {request : NavigationRequest} {s : Session σ} {e : Fault}
    (h : (navigate src viewer request s).1 = .error e) :
    (e.kind = .forbidden ∨ e.kind = .invalidInput) ∧ (navigate src viewer request s).2 = s := by
  obtain ⟨e', hkind, hnavigate⟩ | ⟨state, after, hnavigate, -⟩ | ⟨target, reason, source, hfails⟩ :=
    navigate_cases src viewer request s
  · rw [hnavigate] at h ⊢
    obtain rfl : e' = e := Except.error.inj h
    exact ⟨hkind, rfl⟩
  · simp [hnavigate] at h
  · simp [navigate_of_loadFails src viewer hfails] at h

theorem posted_of_navigate {request : NavigationRequest} {s : Session σ} {state : ViewState}
    (h : (navigate src viewer request s).1 = .ok state)
    (hloads : ¬∃ target reason source, LoadFails src s request target reason source) :
    (navigate src viewer request s).2.posted = s.posted := by
  obtain ⟨e, -, hnavigate⟩ | ⟨_, after, hnavigate, hposted⟩ | hfails :=
    navigate_cases src viewer request s
  · simp [hnavigate] at h
  · rw [hnavigate]
    exact hposted
  · exact absurd hfails hloads

/-- A view that is shown is that of the token, with what a detail view puts into it. -/
theorem view_of_render {token : String} {refresh : Bool} {s : Session σ} {state : ViewState}
    (h : (render src viewer token refresh s).1 = .ok (.view state)) :
    ∃ detail reloaded, state = { blankView viewer token refresh with detail, reloaded } := by
  cases hauthorized : (readToken token refresh).1.authorize viewer.granted with
  | error e => simp [render_of_refused src viewer hauthorized] at h
  | ok _ =>
    rw [render_of_authorized src viewer hauthorized] at h
    by_cases hdefault : (readToken token refresh).1 = .default
    · simp [hdefault, renderRoute] at h
    · cases hfamily : (readToken token refresh).1.detailFamily? with
      | none =>
        rw [renderRoute_of_no_family src hfamily hdefault] at h
        obtain rfl : blankView viewer token refresh = state := by simpa using h
        generalize blankView viewer token refresh = blank
        exact ⟨blank.detail, blank.reloaded, rfl⟩
      | some family =>
        rw [renderRoute_of_family src hfamily] at h
        cases hshown : (showDetail src family (readToken token refresh).2 s).1 with
        | error e => simp [hshown, Except.map] at h
        | ok outcome =>
          rw [hshown] at h
          exact ViewState.eq_of_after_eq_view (Except.ok.inj h)

/-- The view that a request ends in is that of its own path or of where a redirect led. -/
theorem view_of_navigate {request : NavigationRequest} {s : Session σ} {state : ViewState}
    (h : (navigate src viewer request s).1 = .ok state) :
    ∃ token, (token = request.path ∨ token = defaultView ∨ token = inventoryView) ∧
      ∃ detail reloaded, state = { blankView viewer token request.refresh with detail, reloaded } := by
  obtain ⟨e, -, hrender⟩ | hrender | ⟨shown, after, hrender, -⟩ | ⟨target, reason, source, hfails⟩ :=
    render_outcome src viewer request s
  · simp [navigate_of_renders src viewer (.refused hrender) (by omega)] at h
  · have hshown := render_of_redirect src viewer (.inl rfl) request.refresh s
    rw [navigate_of_renders src viewer (.led hrender (.shown hshown)) (by omega)] at h
    exact ⟨defaultView, .inr (.inl rfl), _, _, (Except.ok.inj h).symm⟩
  · rw [navigate_of_renders src viewer (.shown hrender) (by omega)] at h
    refine ⟨request.path, .inl rfl, view_of_render src viewer (s := s) ?_⟩
    rw [hrender, Except.ok.inj h]
  · rw [navigate_of_loadFails src viewer hfails] at h
    exact ⟨inventoryView, .inr (.inr rfl), _, _, (Except.ok.inj h).symm⟩

theorem LoadFails.traced {s : Session σ} {request : NavigationRequest} {target : DetailTarget}
    {reason : String} {source : σ} (h : LoadFails src s request target reason source) :
    ∃ calls : List SourceCall, (∀ call ∈ calls, call.isLookup) ∧
      LoadFails src.traced (s.tracing []) request target reason (calls, source) := by
  obtain ⟨calls, hcalls, hunloadable⟩ := src.unloadable_traced h.unloadable
  exact ⟨calls, hcalls, h.target_eq, h.not_kept, hunloadable⟩

/-- The visits that a request records. -/
def visits (request : NavigationRequest) (s : Session σ) : List SourceCall :=
  (navigate src.traced viewer request (s.tracing [])).2.source.1.filter fun call => !call.isLookup

theorem visits_of_loadFails {s : Session σ} {request : NavigationRequest} {target : DetailTarget}
    {reason : String} {source : σ} (h : LoadFails src s request target reason source) :
    visits src viewer request s = [] := by
  obtain ⟨calls, hcalls, htraced⟩ := LoadFails.traced src h
  rw [visits, navigate_of_loadFails src.traced viewer htraced]
  simpa [warned] using hcalls

theorem blankView_inventory (refresh : Bool) :
    blankView viewer inventoryView refresh =
      { ViewState.initial with
        path := "Inventory", title := viewer.product ++ ": Inventory"
        route := some .inventory } := by
  have hsegments : ((ViewPath.ofToken inventoryView).withRefresh refresh).segments =
      ["Inventory"] := by
    cases refresh <;> cbv
  have hroute : (readToken inventoryView refresh).1 = .inventory := by cases refresh <;> cbv
  have htitle : viewer.product ++ ": " ++ "Inventory" = viewer.product ++ ": Inventory" := by
    rw [String.append_assoc]
    rfl
  simp only [blankView, ViewPath.text, ViewPath.title, ViewPath.join, hsegments, hroute,
    List.filter_nil, Text.joinWith_singleton, htitle]

/-- Every request ends after two renderings at the most. One that is refused leaves everything as it
was. One for an entity that cannot be loaded ends in the inventory, with nothing left of the view,
nothing recorded and one warning; in all other cases nothing is posted. -/
theorem navigation_ends (request : NavigationRequest) (s : Session σ) :
    let answer := (navigate src viewer request s).1
    let after := (navigate src viewer request s).2
    (∃ count ≤ 2, Renders src viewer request.refresh count request.path s (answer, after)) ∧
    (∀ e, answer = .error e →
      (e.kind = .forbidden ∨ e.kind = .invalidInput) ∧
        (∀ cause, e ≠ .unknown "Too many view redirects" cause) ∧ after = s) ∧
    (∀ target reason source, LoadFails src s request target reason source →
      answer = .ok { ViewState.initial with
        path := "Inventory", title := viewer.product ++ ": Inventory", route := some .inventory } ∧
      (after.details.navigator target.entity.family).loaded = none ∧
      after.details.current = none ∧ visits src viewer request s = [] ∧
      after.posted = s.posted ++ [loadFailure target.entity reason]) ∧
    ∀ state, answer = .ok state →
      (¬∃ target reason source, LoadFails src s request target reason source) →
      after.posted = s.posted := by
  intro answer after
  have hended : (answer, after) = navigate src viewer request s := Prod.mk.eta
  refine ⟨?_, fun e he => ?_, fun target reason source h => ?_,
    fun state hstate hloads => posted_of_navigate src viewer hstate hloads⟩
  · rw [hended]
    exact exists_renders src viewer request s
  · obtain ⟨hkind, hafter⟩ := refused_of_navigate src viewer he
    refine ⟨hkind, fun cause hcause => ?_, hafter⟩
    rw [hcause] at hkind
    simp [Fault.unknown] at hkind
  · have hwarned := navigate_of_loadFails src viewer h
    have hafter : after = s.warned target reason source := congrArg Prod.snd hwarned
    rw [← blankView_inventory viewer request.refresh, hafter]
    exact ⟨congrArg Prod.fst hwarned, Details.loaded_dropped _ _, rfl,
      visits_of_loadFails src viewer h, rfl⟩

end Session

namespace Vanishing

def again : NavigationRequest := ⟨"ResourceGroup/7/Events", true⟩

theorem loadFails_again :
    Session.LoadFails source session again ⟨.group ⟨7⟩, some "Events", none⟩
      "Group with id [7] does not exist." false where
  target_eq := by cbv
  not_kept := fun ⟨hrefresh, _⟩ => by simp [again] at hrefresh
  unloadable := .missing (by cbv)

/-- The group that is shown is gone when it is asked for anew. A path without an id changes
nothing. -/
theorem navigation_ends_vanishing :
    (Session.navigate source viewer again session).1 =
        .ok { ViewState.initial with
          path := "Inventory", title := "RHQ: Inventory", route := some .inventory } ∧
      (Session.navigate source viewer again session).2.posted =
        [⟨.warning, "Failed to load group with id [7]", "Group with id [7] does not exist."⟩] ∧
      (Session.navigate source viewer ⟨"ResourceGroup/seven", false⟩ session).2 = session := by
  obtain ⟨-, -, hfails, -⟩ := Session.navigation_ends source viewer again session
  obtain ⟨-, hrefused, -⟩ :=
    Session.navigation_ends source viewer ⟨"ResourceGroup/seven", false⟩ session
  obtain ⟨hanswer, -, -, -, hposted⟩ := hfails _ _ _ loadFails_again
  have hseven : (Session.navigate source viewer ⟨"ResourceGroup/seven", false⟩ session).1 =
      .error (.invalid "Invalid entity id in view path" "expected numeric id, got seven") := by
    cbv
  exact ⟨hanswer, hposted, (hrefused _ hseven).2.2⟩

end Vanishing

end FleetConsole.Navigation
