import FleetConsole.Inventory.Demo
import FleetConsole.Inventory.Store
import FleetConsole.Proofs.DetailViews

/-! Navigation over an inventory in memory. What the detail views hold is what would be fetched
again, so that the answer to a request does not depend on the requests before it. -/
namespace FleetConsole.Navigation

/-- The outcome without whether the entity was fetched for it. -/
def DetailOutcome.content : DetailOutcome → DetailOutcome
  | .tabSelected view => .loaded view
  | outcome => outcome

/-- The state without whether the entity was fetched for it. -/
def ViewState.content (state : ViewState) : ViewState := { state with reloaded := false }

def Step.content : Step → Step
  | .view state => .view state.content
  | .redirect path => .redirect path

/-- What is rendered for an outcome. -/
def ViewState.after (state : ViewState) : DetailOutcome → Step
  | .landing _ => .view state
  | .loaded view => .view { state with detail := some view, reloaded := true }
  | .tabSelected view => .view { state with detail := some view }
  | .redirect path => .redirect path

theorem ViewState.content_after (state : ViewState) (outcome : DetailOutcome) :
    (state.after outcome.content).content = (state.after outcome).content := by
  cases outcome <;> rfl

/-- The route of a token, and the rest of its path. -/
def readToken (token : String) (refresh : Bool) : Route × ViewPath :=
  Route.read ((ViewPath.ofToken token).withRefresh refresh)

/-- What a viewer sees of a token before any entity is shown. -/
def blankView (viewer : Viewer) (token : String) (refresh : Bool) : ViewState :=
  let path := (ViewPath.ofToken token).withRefresh refresh
  { ViewState.initial with
    path := path.text, title := path.title viewer.product
    route := some (readToken token refresh).1 }

/-- The entity that the path of a request names, on its tab. -/
def NavigationRequest.target? (request : NavigationRequest) : Option DetailTarget :=
  let (route, p) := readToken request.path request.refresh
  route.detailFamily?.bind fun family =>
    match (family.readTarget p).1 with
    | .error _ => none
    | .ok target => target

theorem ViewState.content_of_after_eq_view {state shown : ViewState} {outcome : DetailOutcome}
    {view : DetailView} (hstate : state.detail = none) (h : state.after outcome = .view shown)
    (hshown : shown.detail = some view) : outcome.content = .loaded view := by
  cases outcome with
  | landing =>
    obtain rfl : state = shown := by simpa [after] using h
    simp [hstate] at hshown
  | loaded found | tabSelected found =>
    simp only [after, Step.view.injEq] at h
    rw [← h] at hshown
    simpa [DetailOutcome.content] using hshown
  | redirect => simp [after] at h

theorem ViewState.after_of_content_eq_loaded (state : ViewState) {outcome : DetailOutcome}
    {view : DetailView} (h : outcome.content = .loaded view) :
    ∃ shown : ViewState, state.after outcome = .view shown ∧ shown.detail = some view := by
  cases outcome with
  | loaded found | tabSelected found =>
    obtain rfl : found = view := by simpa [DetailOutcome.content] using h
    exact ⟨_, rfl, rfl⟩
  | landing | redirect => simp [DetailOutcome.content] at h

theorem ViewState.eq_of_after_eq_redirect {state : ViewState} {outcome : DetailOutcome}
    {path : String} (h : state.after outcome = .redirect path) : outcome = .redirect path := by
  cases outcome <;> simp_all [after]

theorem ViewState.map_content_after (state : ViewState) (outcome : Except Fault DetailOutcome) :
    (outcome.map state.after).map Step.content =
      ((outcome.map DetailOutcome.content).map state.after).map Step.content := by
  cases outcome with
  | error e => rfl
  | ok outcome => simp only [Except.map, state.content_after]

theorem Route.authorize_of_family {route : Route} {family : DetailFamily}
    (h : route.detailFamily? = some family) (granted : List Permission) :
    route.authorize granted = .ok () := by
  cases route <;> simp_all [detailFamily?, authorize]

theorem NavigationRequest.target?_eq_some_iff {request : NavigationRequest}
    {target : DetailTarget} :
    request.target? = some target ↔
      ∃ family, (readToken request.path request.refresh).1.detailFamily? = some family ∧
        (family.readTarget (readToken request.path request.refresh).2).1 =
          .ok (some target) := by
  rw [target?, Option.bind_eq_some_iff]
  refine exists_congr fun family => and_congr_right fun _ => ?_
  cases (family.readTarget (readToken request.path request.refresh).2).1 <;> simp

theorem Step.content_eq {a b : Except Fault Step} (h : a.map content = b.map content) :
    (∃ e, a = .error e ∧ b = .error e) ∨
      (∃ x y, a = .ok (.view x) ∧ b = .ok (.view y) ∧ x.content = y.content) ∨
      ∃ path, a = .ok (.redirect path) ∧ b = .ok (.redirect path) := by
  match a, b with
  | .error e, .error e' => simp_all [Except.map]
  | .error e, .ok y => simp [Except.map] at h
  | .ok x, .error e => simp [Except.map] at h
  | .ok (.view x), .ok (.view y) => simp_all [Except.map, content]
  | .ok (.view x), .ok (.redirect q) => simp [Except.map, content] at h
  | .ok (.redirect p), .ok (.view y) => simp [Except.map, content] at h
  | .ok (.redirect p), .ok (.redirect q) => simp_all [Except.map, content]

namespace Session

variable {σ : Type} (src : EntitySource σ) (viewer : Viewer)

theorem renderRoute_of_no_family {route : Route} (h : route.detailFamily? = none)
    (hdefault : route ≠ .default) (state : ViewState) (p : ViewPath) (s : Session σ) :
    renderRoute src state route p s = (.ok (.view state), s) := by
  simp only [renderRoute, h]

theorem renderRoute_of_family {route : Route} {family : DetailFamily}
    (h : route.detailFamily? = some family) (state : ViewState) (p : ViewPath) (s : Session σ) :
    renderRoute src state route p s =
      ((showDetail src family p s).1.map state.after, (showDetail src family p s).2.2) := by
  have hdefault : route ≠ .default := by
    rintro rfl
    simp [Route.detailFamily?] at h
  simp only [renderRoute, h]
  cases hshown : showDetail src family p s with
  | mk outcome rest =>
    match outcome with
    | .error e => rfl
    | .ok (.landing _) => rfl
    | .ok (.loaded _) => rfl
    | .ok (.tabSelected _) => rfl
    | .ok (.redirect _) => rfl

theorem render_of_refused {token : String} {refresh : Bool} {e : Fault}
    (h : (readToken token refresh).1.authorize viewer.granted = .error e) (s : Session σ) :
    render src viewer token refresh s = (.error e, s) := by
  rw [readToken] at h
  simp only [render, h]

theorem render_of_authorized {token : String} {refresh : Bool}
    (h : (readToken token refresh).1.authorize viewer.granted = .ok ()) (s : Session σ) :
    render src viewer token refresh s =
      renderRoute src (blankView viewer token refresh) (readToken token refresh).1
        (readToken token refresh).2 s := by
  rw [readToken] at h
  simp only [render, h, blankView, readToken]

/-- A rendering is the same in every session, and shows no entity, or it is what a detail view makes
of the rest of the path. -/
theorem render_cases (token : String) (refresh : Bool) :
    (∃ result : Except Fault Step,
      (∀ s : Session σ, render src viewer token refresh s = (result, s)) ∧
      ∀ step, result = .ok step →
        step = .redirect defaultView ∨ ∃ state, step = .view state ∧ state.detail = none) ∨
    ∃ family, (readToken token refresh).1.detailFamily? = some family ∧
      ∀ s : Session σ, render src viewer token refresh s =
        ((showDetail src family (readToken token refresh).2 s).1.map
            (blankView viewer token refresh).after,
          (showDetail src family (readToken token refresh).2 s).2.2) := by
  cases hauthorized : (readToken token refresh).1.authorize viewer.granted with
  | error e => exact .inl ⟨.error e, render_of_refused src viewer hauthorized, by simp⟩
  | ok _ =>
    simp only [render_of_authorized src viewer hauthorized]
    by_cases hdefault : (readToken token refresh).1 = .default
    · rw [hdefault]
      exact .inl ⟨.ok (.redirect defaultView), fun _ => rfl, by simp⟩
    · cases hfamily : (readToken token refresh).1.detailFamily? with
      | none =>
        refine .inl ⟨.ok (.view (blankView viewer token refresh)), fun s => ?_, ?_⟩
        · exact renderRoute_of_no_family src hfamily hdefault _ _ s
        · simp [blankView, ViewState.initial]
      | some family =>
        exact .inr ⟨family, rfl, fun s => renderRoute_of_family src hfamily _ _ s⟩

theorem family_redirect (refresh : Bool) {path : String}
    (h : path = defaultView ∨ path = inventoryView) :
    (readToken path refresh).1.detailFamily? = none := by
  rcases h with rfl | rfl <;> cases refresh <;> cbv

/-- Redirects lead to views without an entity. -/
theorem detail_follow_of_no_family {token : String} {refresh : Bool} {renderings : Nat}
    {s : Session σ} {state : ViewState}
    (htoken : (readToken token refresh).1.detailFamily? = none)
    (h : (follow src viewer refresh renderings token s).1 = .ok state) : state.detail = none := by
  induction renderings generalizing token s with
  | zero => simp [follow] at h
  | succ renderings ih =>
    rcases render_cases src viewer token refresh with ⟨result, hrender, hresult⟩ | ⟨_, hfamily, _⟩
    · simp only [follow, hrender] at h
      match result with
      | .error e => simp at h
      | .ok step =>
        obtain rfl | ⟨plain, rfl, hdetail⟩ := hresult step rfl
        · exact ih (family_redirect refresh (.inl rfl)) h
        · obtain rfl : plain = state := by simpa using h
          exact hdetail
    · rw [htoken] at hfamily
      simp at hfamily

/-- A console that is asked for one path after another. -/
def navigateAll (requests : List NavigationRequest) (s : Session σ) : Session σ :=
  requests.foldl (fun s request => (navigate src viewer request s).2) s

end Session

end FleetConsole.Navigation

namespace FleetConsole.Inventory

open Navigation

variable (inv : Inventory)

def entity? : DetailEntity → Option LoadedEntity
  | .resource id => (inv.resource? id).map .resource
  | .group id => (inv.group? id .visible).map .group
  | .autoGroup id => (inv.group? id .autoGroup).map .group
  | .autoCluster id => (inv.group? id .autoCluster).map .group

/-- The inventory has the entity, and a group is of the kind that is asked for. -/
def Has : DetailEntity → LoadedEntity → Prop
  | .resource id, .resource r => r ∈ inv.resources ∧ r.id = id
  | .group id, .group g => g ∈ inv.groups ∧ g.id = id ∧ g.isVisibleAs .visible
  | .autoGroup id, .group g => g ∈ inv.groups ∧ g.id = id ∧ g.isVisibleAs .autoGroup
  | .autoCluster id, .group g => g ∈ inv.groups ∧ g.id = id ∧ g.isVisibleAs .autoCluster
  | _, _ => False

theorem resource_of_resource? {id : ResourceId} {r : Resource} (h : inv.resource? id = some r) :
    r ∈ inv.resources ∧ r.id = id :=
  ⟨List.mem_of_find?_eq_some h, by simpa using List.find?_some h⟩

theorem group_of_group? {id : GroupId} {visibility : GroupVisibility} {g : ResourceGroup}
    (h : inv.group? id visibility = some g) :
    g ∈ inv.groups ∧ g.id = id ∧ g.isVisibleAs visibility :=
  ⟨List.mem_of_find?_eq_some h, by simpa using List.find?_some h⟩

theorem has_of_entity? {entity : DetailEntity} {loaded : LoadedEntity}
    (h : inv.entity? entity = some loaded) : inv.Has entity loaded := by
  cases entity with
  | resource id =>
    obtain ⟨r, hr, rfl⟩ := Option.map_eq_some_iff.mp h
    exact inv.resource_of_resource? hr
  | group | autoGroup | autoCluster =>
    obtain ⟨g, hg, rfl⟩ := Option.map_eq_some_iff.mp h
    exact inv.group_of_group? hg

/-- The view of a target, or why it cannot be shown. -/
def detailView (target : DetailTarget) : Except String DetailView :=
  (inv.entitySource.loadView target .empty).1

theorem fetch_entitySource (entity : DetailEntity) (recents : Recents) :
    inv.entitySource.fetch entity recents = (.ok (inv.entity? entity), recents) := by
  cases entity <;> rfl

/-- What has been viewed does not matter to what is found. -/
theorem loadView_entitySource (target : DetailTarget) (recents : Recents) :
    inv.entitySource.loadView target recents = (inv.detailView target, recents) := by
  simp only [detailView, EntitySource.loadView, fetch_entitySource]
  cases inv.entity? target.entity with
  | none => rfl
  | some loaded =>
    simp only
    cases loaded.typeId? with
    | none => rfl
    | some typeId =>
      have htype (recents : Recents) : inv.entitySource.resourceType typeId recents =
          (.ok (inv.catalog.type? typeId), recents) := rfl
      simp only [htype]
      cases inv.catalog.type? typeId <;> rfl

theorem detailView_retarget {target other : DetailTarget} (h : other.entity = target.entity) :
    inv.detailView target = (inv.detailView other).map ({ · with target }) := by
  rw [detailView, inv.entitySource.loadView_retarget h, detailView]

theorem target_of_detailView {target : DetailTarget} {view : DetailView}
    (h : inv.detailView target = .ok view) : view.target = target :=
  inv.entitySource.target_of_loadView h

theorem has_of_detailView {target : DetailTarget} {view : DetailView}
    (h : inv.detailView target = .ok view) : inv.Has target.entity view.entity := by
  have hfetch := inv.entitySource.fetch_of_loadView h
  rw [fetch_entitySource] at hfetch
  exact inv.has_of_entity? (Except.ok.inj hfetch)

/-- What is shown is in step, and is what would be fetched for it now. -/
structure Settled (d : Details) : Prop where
  coherent : d.Coherent
  current_eq : ∀ view, d.current = some view → inv.detailView view.target = .ok view

theorem settled_empty : inv.Settled .empty :=
  ⟨Details.coherent_empty, by simp [Details.empty]⟩

/-- The outcome for a target when nothing has been shown before. -/
def detailOutcome (target : DetailTarget) : DetailOutcome :=
  match inv.detailView target with
  | .ok view => .loaded view
  | .error _ => .redirect inventoryView

/-- The outcome for a path when nothing has been shown before. -/
def pathOutcome (family : DetailFamily) (p : ViewPath) : Except Fault DetailOutcome :=
  (family.readTarget p).1.map fun
    | none => .landing family
    | some target => inv.detailOutcome target

theorem pathOutcome_eq_loaded {family : DetailFamily} {p : ViewPath} {view : DetailView}
    (h : inv.pathOutcome family p = .ok (.loaded view)) :
    (family.readTarget p).1 = .ok (some view.target) ∧
      inv.detailView view.target = .ok view := by
  unfold pathOutcome at h
  match hread : (family.readTarget p).1 with
  | .error e => simp [hread, Except.map] at h
  | .ok none => simp [hread, Except.map] at h
  | .ok (some target) =>
    cases hview : inv.detailView target with
    | error reason => simp [hread, Except.map, detailOutcome, hview] at h
    | ok found =>
      obtain rfl : found = view := by simpa [hread, Except.map, detailOutcome, hview] using h
      rw [inv.target_of_detailView hview]
      exact ⟨rfl, hview⟩

theorem pathOutcome_eq_redirect {family : DetailFamily} {p : ViewPath} {path : String}
    (h : inv.pathOutcome family p = .ok (.redirect path)) : path = inventoryView := by
  unfold pathOutcome at h
  match hread : (family.readTarget p).1 with
  | .error e => simp [hread, Except.map] at h
  | .ok none => simp [hread, Except.map] at h
  | .ok (some target) =>
    cases hview : inv.detailView target with
    | error reason =>
      exact (by simpa [hread, Except.map, detailOutcome, hview] using h : inventoryView = path).symm
    | ok found => simp [hread, Except.map, detailOutcome, hview] at h

section Sessions

variable {s t : Session Recents}

theorem load_entitySource (family : DetailFamily) (target : DetailTarget)
    (s : Session Recents) :
    (Session.load inv.entitySource family target s).1 = inv.detailOutcome target := by
  simp only [Session.load, loadView_entitySource, detailOutcome]
  cases inv.detailView target <;> rfl

theorem settled_load (target : DetailTarget) (s : Session Recents) :
    inv.Settled (Session.load inv.entitySource target.entity.family target s).2.details := by
  refine ⟨Session.coherent_load inv.entitySource s rfl, ?_⟩
  simp only [Session.load, loadView_entitySource]
  cases hfound : inv.detailView target with
  | error reason => simp [Session.post, Details.dropped]
  | ok found =>
    intro view hview
    obtain rfl : found = view := by simpa [Details.shown] using hview
    rw [inv.target_of_detailView hfound, hfound]

theorem content_present (hs : inv.Settled s.details) (target : DetailTarget) (refresh : Bool) :
    (Session.present inv.entitySource target.entity.family target refresh s).1.content =
        inv.detailOutcome target ∧
      inv.Settled
        (Session.present inv.entitySource target.entity.family target refresh s).2.details := by
  by_cases h : refresh = false ∧ s.details.Shows target.entity
  · obtain ⟨rfl, view, hview, hentity⟩ := h
    have hagain : inv.detailView target = .ok { view with target } := by
      rw [inv.detailView_retarget hentity, hs.current_eq view hview, Except.map]
    rw [Session.present_of_shows inv.entitySource hs.coherent hview hentity]
    refine ⟨by simp only [DetailOutcome.content, detailOutcome, hagain],
      hs.coherent.withTarget hview hentity, ?_⟩
    intro shown hshown
    obtain rfl : { view with target } = shown := by simpa using hshown
    exact hagain
  · rw [Session.present_of_not_shows inv.entitySource h, load_entitySource]
    refine ⟨?_, inv.settled_load target s⟩
    unfold detailOutcome
    split <;> rfl

/-- A detail view answers as if nothing had been shown before. -/
theorem content_showDetail (hs : inv.Settled s.details) (family : DetailFamily) (p : ViewPath) :
    (Session.showDetail inv.entitySource family p s).1.map DetailOutcome.content =
        inv.pathOutcome family p ∧
      inv.Settled (Session.showDetail inv.entitySource family p s).2.2.details := by
  by_cases h : ∃ target, (family.readTarget p).1 = .ok (some target)
  · obtain ⟨target, htarget⟩ := h
    obtain ⟨hcontent, hsettled⟩ := inv.content_present hs target p.refresh
    rw [Session.showDetail_of_target inv.entitySource htarget, pathOutcome, htarget]
    exact ⟨by simp only [Except.map, hcontent], hsettled⟩
  · rw [Session.showDetail_of_no_target inv.entitySource (not_exists.mp h)]
    refine ⟨?_, hs⟩
    unfold pathOutcome
    cases hread : (family.readTarget p).1 with
    | error e => rfl
    | ok found =>
      cases found with
      | none => rfl
      | some target => exact absurd ⟨target, hread⟩ h

theorem settled_render (hs : inv.Settled s.details) (viewer : Viewer) (token : String)
    (refresh : Bool) :
    inv.Settled (Session.render inv.entitySource viewer token refresh s).2.details := by
  rcases Session.render_cases inv.entitySource viewer token refresh with
    ⟨_, hrender, _⟩ | ⟨family, _, hrender⟩
  · rw [hrender]
    exact hs
  · simp only [hrender]
    exact (inv.content_showDetail hs family _).2

theorem content_render (hs : inv.Settled s.details) (ht : inv.Settled t.details)
    (viewer : Viewer) (token : String) (refresh : Bool) :
    (Session.render inv.entitySource viewer token refresh s).1.map Step.content =
      (Session.render inv.entitySource viewer token refresh t).1.map Step.content := by
  rcases Session.render_cases inv.entitySource viewer token refresh with
    ⟨_, hrender, _⟩ | ⟨family, _, hrender⟩
  · rw [hrender, hrender]
  · have hcontent {u : Session Recents} (hu : inv.Settled u.details) :
        (Session.render inv.entitySource viewer token refresh u).1.map Step.content =
          ((inv.pathOutcome family (readToken token refresh).2).map
            (blankView viewer token refresh).after).map Step.content := by
      rw [hrender, ViewState.map_content_after, (inv.content_showDetail hu family _).1]
    rw [hcontent hs, hcontent ht]

theorem settled_follow (hs : inv.Settled s.details) (viewer : Viewer) (refresh : Bool)
    (renderings : Nat) (token : String) :
    inv.Settled
      (Session.follow inv.entitySource viewer refresh renderings token s).2.details := by
  induction renderings generalizing token s with
  | zero => exact hs
  | succ renderings ih =>
    have hrender := inv.settled_render hs viewer token refresh
    unfold Session.follow
    cases hstep : Session.render inv.entitySource viewer token refresh s with
    | mk result after =>
      rw [hstep] at hrender
      match result with
      | .error e => exact hrender
      | .ok (.view state) => exact hrender
      | .ok (.redirect path) => exact ih hrender path

theorem content_follow (hs : inv.Settled s.details) (ht : inv.Settled t.details)
    (viewer : Viewer) (refresh : Bool) (renderings : Nat) (token : String) :
    (Session.follow inv.entitySource viewer refresh renderings token s).1.map ViewState.content =
      (Session.follow inv.entitySource viewer refresh renderings token t).1.map
        ViewState.content := by
  induction renderings generalizing token s t with
  | zero => rfl
  | succ renderings ih =>
    have hcontent := inv.content_render hs ht viewer token refresh
    have hs' := inv.settled_render hs viewer token refresh
    have ht' := inv.settled_render ht viewer token refresh
    unfold Session.follow
    cases hstep : Session.render inv.entitySource viewer token refresh s with
    | mk a s' =>
      cases hstep' : Session.render inv.entitySource viewer token refresh t with
      | mk b t' =>
        rw [hstep] at hs'
        rw [hstep'] at ht'
        rw [hstep, hstep'] at hcontent
        obtain ⟨e, rfl, rfl⟩ | ⟨x, y, rfl, rfl, hxy⟩ | ⟨path, rfl, rfl⟩ :=
          Step.content_eq hcontent
        · rfl
        · simp only [Except.map, hxy]
        · exact ih hs' ht' path

theorem settled_navigate (hs : inv.Settled s.details) (viewer : Viewer)
    (request : NavigationRequest) :
    inv.Settled (Session.navigate inv.entitySource viewer request s).2.details := by
  rw [Session.navigate]
  exact inv.settled_follow hs viewer request.refresh 3 request.path

theorem settled_navigateAll (hs : inv.Settled s.details) (viewer : Viewer)
    (requests : List NavigationRequest) :
    inv.Settled (Session.navigateAll inv.entitySource viewer requests s).details := by
  induction requests generalizing s with
  | nil => exact hs
  | cons request requests ih =>
    rw [Session.navigateAll, List.foldl_cons, ← Session.navigateAll]
    exact ih (inv.settled_navigate hs viewer request)

/-- What a detail view makes of the path behind a rendering's view or redirect. -/
theorem pathOutcome_of_render (hs : inv.Settled s.details) {viewer : Viewer} {token : String}
    {refresh : Bool} {family : DetailFamily} {step : Step}
    (hrender : Session.render inv.entitySource viewer token refresh s =
      ((Session.showDetail inv.entitySource family (readToken token refresh).2 s).1.map
          (blankView viewer token refresh).after,
        (Session.showDetail inv.entitySource family (readToken token refresh).2 s).2.2))
    (h : (Session.render inv.entitySource viewer token refresh s).1 = .ok step) :
    ∃ outcome : DetailOutcome, (blankView viewer token refresh).after outcome = step ∧
      inv.pathOutcome family (readToken token refresh).2 = .ok outcome.content := by
  rw [← (inv.content_showDetail hs family _).1]
  simp only [hrender] at h
  cases hshown : (Session.showDetail inv.entitySource family (readToken token refresh).2 s).1 with
  | error e => simp [hshown, Except.map] at h
  | ok outcome =>
    simp only [hshown, Except.map, Except.ok.injEq] at h
    exact ⟨outcome, h, rfl⟩

theorem detail_of_render (hs : inv.Settled s.details) {viewer : Viewer} {token : String}
    {refresh : Bool} {state : ViewState} {view : DetailView}
    (h : (Session.render inv.entitySource viewer token refresh s).1 = .ok (.view state))
    (hdetail : state.detail = some view) :
    ∃ family, (readToken token refresh).1.detailFamily? = some family ∧
      (family.readTarget (readToken token refresh).2).1 = .ok (some view.target) ∧
      inv.detailView view.target = .ok view := by
  rcases Session.render_cases inv.entitySource viewer token refresh with
    ⟨result, hrender, hresult⟩ | ⟨family, hfamily, hrender⟩
  · rw [hrender] at h
    obtain hstep | ⟨plain, hstep, hplain⟩ := hresult _ h
    · simp at hstep
    · obtain rfl : state = plain := by simpa using hstep
      simp [hdetail] at hplain
  · obtain ⟨outcome, hafter, houtcome⟩ := inv.pathOutcome_of_render hs (hrender s) h
    rw [ViewState.content_of_after_eq_view rfl hafter hdetail] at houtcome
    exact ⟨family, hfamily, inv.pathOutcome_eq_loaded houtcome⟩

theorem redirect_of_render (hs : inv.Settled s.details) {viewer : Viewer} {token path : String}
    {refresh : Bool}
    (h : (Session.render inv.entitySource viewer token refresh s).1 = .ok (.redirect path)) :
    path = defaultView ∨ path = inventoryView := by
  rcases Session.render_cases inv.entitySource viewer token refresh with
    ⟨result, hrender, hresult⟩ | ⟨family, -, hrender⟩
  · rw [hrender] at h
    obtain hstep | ⟨plain, hstep, -⟩ := hresult _ h
    · exact .inl (by simpa using hstep)
    · simp at hstep
  · obtain ⟨outcome, hafter, houtcome⟩ := inv.pathOutcome_of_render hs (hrender s) h
    rw [ViewState.eq_of_after_eq_redirect hafter] at houtcome
    exact .inr (inv.pathOutcome_eq_redirect houtcome)

/-- The entity shown is the one the request names. -/
theorem detail_of_navigate (hs : inv.Settled s.details) {viewer : Viewer}
    {request : NavigationRequest} {state : ViewState} {view : DetailView}
    (h : (Session.navigate inv.entitySource viewer request s).1 = .ok state)
    (hdetail : state.detail = some view) :
    request.target? = some view.target ∧ inv.detailView view.target = .ok view := by
  rw [Session.navigate, Session.follow] at h
  cases hrender : Session.render inv.entitySource viewer request.path request.refresh s with
  | mk result after =>
    rw [hrender] at h
    cases result with
    | error e => simp at h
    | ok step =>
      cases step with
      | view shown =>
        obtain rfl : shown = state := by simpa using h
        obtain ⟨family, hfamily, htarget, hview⟩ :=
          inv.detail_of_render hs (by rw [hrender]) hdetail
        exact ⟨NavigationRequest.target?_eq_some_iff.mpr ⟨family, hfamily, htarget⟩, hview⟩
      | redirect path =>
        simp only at h
        have hpath := inv.redirect_of_render hs (by rw [hrender])
        have hplain := Session.detail_follow_of_no_family inv.entitySource viewer
          (Session.family_redirect request.refresh hpath) h
        simp [hdetail] at hplain

/-- An entity that is named and found is shown. -/
theorem navigate_of_detailView (hs : inv.Settled s.details) (viewer : Viewer)
    {request : NavigationRequest} {view : DetailView}
    (htarget : request.target? = some view.target)
    (hview : inv.detailView view.target = .ok view) :
    ∃ state, (Session.navigate inv.entitySource viewer request s).1 = .ok state ∧
      state.detail = some view := by
  obtain ⟨family, hfamily, hread⟩ := NavigationRequest.target?_eq_some_iff.mp htarget
  have hrender := Session.render_of_authorized inv.entitySource viewer
    (Route.authorize_of_family hfamily viewer.granted) s
  rw [Session.renderRoute_of_family inv.entitySource hfamily] at hrender
  have hcontent := (inv.content_showDetail hs family
    (readToken request.path request.refresh).2).1
  have hpath : inv.pathOutcome family (readToken request.path request.refresh).2 =
      .ok (.loaded view) := by
    simp only [pathOutcome, hread, Except.map, detailOutcome, hview]
  rw [hpath] at hcontent
  cases hshown : (Session.showDetail inv.entitySource family
    (readToken request.path request.refresh).2 s).1 with
  | error e => simp [hshown, Except.map] at hcontent
  | ok outcome =>
    rw [hshown] at hcontent
    obtain ⟨shown, hafter, hdetail⟩ :=
      (blankView viewer request.path request.refresh).after_of_content_eq_loaded
        (Except.ok.inj hcontent)
    refine ⟨shown, ?_, hdetail⟩
    rw [Session.navigate, Session.follow, hrender, hshown, Except.map, hafter]

end Sessions

/-- The answer to a request, whatever was requested and viewed before, is that of a console just
started. It shows an entity exactly if the request names it and it is found; a group is of the kind
that is named. -/
theorem navigation_independent_of_history (viewer : Viewer) (earlier : List NavigationRequest)
    (request : NavigationRequest) (recents anew : Recents) :
    let s := Session.navigateAll inv.entitySource viewer earlier (Session.start recents)
    let answer := (Session.navigate inv.entitySource viewer request s).1
    answer.map ViewState.content =
        (Session.navigate inv.entitySource viewer request (Session.start anew)).1.map
          ViewState.content ∧
      (∀ view, (∃ state, answer = .ok state ∧ state.detail = some view) ↔
        request.target? = some view.target ∧ inv.detailView view.target = .ok view) ∧
      ∀ state view, answer = .ok state → state.detail = some view →
        inv.Has view.target.entity view.entity := by
  intro s answer
  have hs : inv.Settled s.details :=
    inv.settled_navigateAll inv.settled_empty viewer earlier
  have hanew : inv.Settled (Session.start anew).details := inv.settled_empty
  refine ⟨?_, fun view => ⟨?_, ?_⟩, fun state view h hdetail => ?_⟩
  · simp only [answer, Session.navigate]
    exact inv.content_follow hs hanew viewer request.refresh 3 request.path
  · rintro ⟨state, h, hdetail⟩
    exact inv.detail_of_navigate hs h hdetail
  · rintro ⟨htarget, hview⟩
    exact inv.navigate_of_detailView hs viewer htarget hview
  · exact inv.has_of_detailView (inv.detail_of_navigate hs h hdetail).2

namespace HiddenGroup

open Demo

/-- The host of the demonstration with its processors. -/
def inventory : Inventory :=
  { Inventory.empty with
    catalog := Demo.catalog, resources := [host, cpu0, cpu1], groups := Demo.groups }

def viewer : Viewer := ⟨[], defaultProduct⟩

/-- A hidden group is shown, and then asked for as if it were not hidden, which fails. What the
view of resources has loaded and what is shown no longer agree after that. -/
def earlier : List NavigationRequest :=
  [⟨"Resource/AutoGroup/20002", false⟩, ⟨"ResourceGroup/20002", false⟩]

def request : NavigationRequest := ⟨"Resource/AutoGroup/20002/Events", false⟩

def group : ResourceGroup :=
  ⟨⟨20002⟩, "host.example.com ( CPU )", none, .compatible, some ⟨3⟩, some host.id, none⟩

def view : DetailView :=
  ⟨⟨.autoGroup ⟨20002⟩, some "Events", none⟩, .group group,
    some (type 3 "CPU" "Platforms" .service false (some 1) [])⟩

theorem navigate_request :
    (Session.navigate inventory.entitySource viewer request
      (Session.navigateAll inventory.entitySource viewer earlier (Session.start .empty))).1 =
      .ok { ViewState.initial with
        path := "Resource/AutoGroup/20002/Events", title := "RHQ: Resource | AutoGroup | Events"
        route := some .resource, detail := some view, reloaded := true } := by
  cbv

theorem navigation_independent_of_history_hidden_group :
    request.target? = some view.target ∧ inventory.Has view.target.entity view.entity := by
  obtain ⟨-, hshown, hhas⟩ :=
    inventory.navigation_independent_of_history viewer earlier request .empty .empty
  exact ⟨((hshown view).mp ⟨_, navigate_request, rfl⟩).1, hhas _ view navigate_request rfl⟩

end HiddenGroup

end FleetConsole.Inventory
