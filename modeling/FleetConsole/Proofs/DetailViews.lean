import Mathlib
import FleetConsole.Navigation.Controller

/-! When a detail view keeps what it shows and when it asks for it anew. What each family's view has
loaded is kept apart from what is shown, and the two stay in step. -/
namespace FleetConsole.Navigation

section Reading

@[simp] theorem DetailFamily.family_entity (f : DetailFamily) (hidden : Bool) (id : Int32) :
    (f.entity hidden id).family = f := by
  cases f <;> cases hidden <;> rfl

theorem DetailFamily.readTabs_spec (entity : DetailEntity) (p : ViewPath) :
    (readTabs entity p).1.entity = entity ∧ (readTabs entity p).2.refresh = p.refresh := by
  unfold readTabs
  simp only
  split
  · simp
  · split <;> simp

theorem DetailFamily.readEntity_spec (f : DetailFamily) (hidden : Bool) (segment : String)
    (p : ViewPath) :
    (f.readEntity hidden segment p).2.refresh = p.refresh ∧
      ∀ target, (f.readEntity hidden segment p).1 = .ok (some target) →
        target.entity.family = f := by
  unfold readEntity
  split
  · simp
  · rename_i id _
    obtain ⟨hentity, hrefresh⟩ := readTabs_spec (f.entity hidden id) p
    refine ⟨hrefresh, fun target htarget => ?_⟩
    obtain rfl : (readTabs (f.entity hidden id) p).1 = target := by simpa using htarget
    rw [hentity, family_entity]

/-- A family reads targets of its own, and reading does not change what is to be reloaded. -/
theorem DetailFamily.readTarget_spec (f : DetailFamily) (p : ViewPath) :
    (f.readTarget p).2.refresh = p.refresh ∧
      ∀ target, (f.readTarget p).1 = .ok (some target) → target.entity.family = f := by
  unfold readTarget
  cases p.current? with
  | none => simp
  | some first =>
    by_cases hfirst : first = f.hiddenSegment
    · cases hnext : p.advance.current? with
      | none => simp [hfirst, hnext]
      | some segment =>
        simpa [hfirst, hnext] using f.readEntity_spec true segment p.advance
    · simpa [hfirst] using f.readEntity_spec false first p

end Reading

namespace Details

/-- What is shown is what its family's view has loaded. -/
def Coherent (d : Details) : Prop :=
  ∀ view, d.current = some view →
    (d.navigator view.target.entity.family).loaded = some view.target.entity

/-- The view shown is of the entity. -/
def Shows (d : Details) (entity : DetailEntity) : Prop :=
  ∃ view, d.current = some view ∧ view.target.entity = entity

/-- The view shown is the one that a family's view has loaded for the target, and it is not to be
loaded anew. -/
def Keeps (d : Details) (family : DetailFamily) (target : DetailTarget) (refresh : Bool) : Prop :=
  refresh = false ∧ (d.navigator family).loaded = some target.entity ∧ d.Shows target.entity

theorem coherent_empty : empty.Coherent := by
  intro view h
  simp [empty] at h

theorem coherent_dropped (d : Details) (family : DetailFamily) : (d.dropped family).Coherent := by
  intro view h
  simp [dropped] at h

theorem coherent_shown (d : Details) {family : DetailFamily} {view : DetailView}
    (h : view.target.entity.family = family) : (d.shown family view).Coherent := by
  intro shown hshown
  obtain rfl : view = shown := by simpa [Details.shown] using hshown
  subst h
  cases hfamily : view.target.entity.family <;>
    simp [Details.shown, setNavigator, navigator, DetailNavigator.markLoaded]

/-- Another tab of what is shown is still in step. -/
theorem Coherent.withTarget {d : Details} (h : d.Coherent) {view : DetailView}
    {target : DetailTarget} (hview : d.current = some view)
    (hentity : view.target.entity = target.entity) :
    Coherent { d with current := some { view with target } } := by
  intro shown hshown
  obtain rfl : { view with target } = shown := by simpa using hshown
  have hloaded := h view hview
  rw [hentity] at hloaded
  exact hloaded

end Details

namespace EntitySource

variable {σ : Type} (src : EntitySource σ)

/-- What is found for an entity does not depend on the tab. -/
theorem loadView_retarget {target other : DetailTarget} (h : other.entity = target.entity)
    (state : σ) :
    src.loadView target state =
      ((src.loadView other state).1.map ({ · with target }), (src.loadView other state).2) := by
  unfold loadView
  simp only [h]
  cases src.fetch target.entity state with
  | mk found after =>
    match found with
    | .error e => rfl
    | .ok none => rfl
    | .ok (some loaded) =>
      simp only
      cases loaded.typeId? with
      | none => rfl
      | some typeId =>
        simp only
        cases src.resourceType typeId after with
        | mk found after =>
          match found with
          | .error e => rfl
          | .ok none => rfl
          | .ok (some t) => rfl

theorem target_of_loadView {target : DetailTarget} {state : σ} {view : DetailView}
    (h : (src.loadView target state).1 = .ok view) : view.target = target := by
  rw [src.loadView_retarget rfl state] at h
  cases hfound : (src.loadView target state).1 with
  | error reason => simp [hfound, Except.map] at h
  | ok found =>
    simp only [hfound, Except.map, Except.ok.injEq] at h
    rw [← h]

theorem fetch_of_loadView {target : DetailTarget} {state : σ} {view : DetailView}
    (h : (src.loadView target state).1 = .ok view) :
    (src.fetch target.entity state).1 = .ok (some view.entity) := by
  unfold loadView at h
  cases hfetch : src.fetch target.entity state with
  | mk found after =>
    match found with
    | .error e => simp [hfetch] at h
    | .ok none => simp [hfetch] at h
    | .ok (some loaded) =>
      simp only [hfetch] at h
      split at h
      · obtain rfl := Except.ok.inj h
        rfl
      · split at h
        · simp at h
        · simp at h
        · obtain rfl := Except.ok.inj h
          rfl

end EntitySource

namespace Session

variable {σ : Type} (src : EntitySource σ)

theorem load_outcome (family : DetailFamily) (target : DetailTarget) (s : Session σ) :
    (∃ view, (load src family target s).1 = .loaded view) ∨
      (load src family target s).1 = .redirect inventoryView := by
  unfold load
  split
  · exact .inr rfl
  · exact .inl ⟨_, rfl⟩

theorem coherent_load {family : DetailFamily} {target : DetailTarget} (s : Session σ)
    (h : target.entity.family = family) : (load src family target s).2.details.Coherent := by
  unfold load
  split
  · exact s.details.coherent_dropped family
  · rename_i view _ hload
    have htarget : view.target = target := src.target_of_loadView (by rw [hload])
    exact s.details.coherent_shown (by rw [htarget, h])

/-- What is kept only changes its tab. -/
theorem present_of_loaded {family : DetailFamily} {target : DetailTarget} {s : Session σ}
    (hloaded : (s.details.navigator family).loaded = some target.entity) {view : DetailView}
    (hview : s.details.current = some view) (hentity : view.target.entity = target.entity) :
    present src family target false s =
      (.tabSelected { view with target },
        { s with details := { s.details with current := some { view with target } } }) := by
  have hkept : s.details.current.filter (fun v => v.target.entity = target.entity) =
      some view := by
    simp [hview, hentity]
  simp only [present, DetailNavigator.plan, hloaded, hkept, Bool.not_false, Bool.true_and,
    decide_true, if_true]

/-- In any other case the entity is fetched. -/
theorem present_of_not_keeps {family : DetailFamily} {target : DetailTarget} {refresh : Bool}
    {s : Session σ} (h : ¬s.details.Keeps family target refresh) :
    present src family target refresh s = load src family target s := by
  unfold present DetailNavigator.plan
  by_cases hkeep : (!refresh && (s.details.navigator family).loaded = some target.entity) = true
  · obtain ⟨hrefresh, hloaded⟩ : refresh = false ∧
        (s.details.navigator family).loaded = some target.entity := by simpa using hkeep
    have hnone : s.details.current.filter (fun v => v.target.entity = target.entity) = none := by
      refine Option.filter_eq_none_iff.mpr fun view hview => ?_
      simpa using fun hentity => h ⟨hrefresh, hloaded, view, hview, hentity⟩
    simp only [hkeep, if_true, hnone]
  · simp only [if_neg hkeep]

/-- Without a refresh, what is shown already only changes its tab. -/
theorem present_of_shows {target : DetailTarget} {s : Session σ} (hs : s.details.Coherent)
    {view : DetailView} (hview : s.details.current = some view)
    (hentity : view.target.entity = target.entity) :
    present src target.entity.family target false s =
      (.tabSelected { view with target },
        { s with details := { s.details with current := some { view with target } } }) := by
  have hloaded := hs view hview
  rw [hentity] at hloaded
  exact present_of_loaded src hloaded hview hentity

theorem present_of_not_shows {family : DetailFamily} {target : DetailTarget} {refresh : Bool}
    {s : Session σ} (h : ¬(refresh = false ∧ s.details.Shows target.entity)) :
    present src family target refresh s = load src family target s :=
  present_of_not_keeps src fun ⟨hrefresh, _, hshows⟩ => h ⟨hrefresh, hshows⟩

theorem coherent_present {target : DetailTarget} {refresh : Bool} {s : Session σ}
    (hs : s.details.Coherent) :
    (present src target.entity.family target refresh s).2.details.Coherent := by
  by_cases h : refresh = false ∧ s.details.Shows target.entity
  · obtain ⟨rfl, view, hview, hentity⟩ := h
    rw [present_of_shows src hs hview hentity]
    exact hs.withTarget hview hentity
  · rw [present_of_not_shows src h]
    exact coherent_load src s rfl

theorem showDetail_of_target {family : DetailFamily} {p : ViewPath} {target : DetailTarget}
    (h : (family.readTarget p).1 = .ok (some target)) (s : Session σ) :
    showDetail src family p s =
      (.ok (present src target.entity.family target p.refresh s).1, (family.readTarget p).2,
        (present src target.entity.family target p.refresh s).2) := by
  obtain ⟨hrefresh, hfamily⟩ := family.readTarget_spec p
  rw [hfamily target h, ← hrefresh]
  cases hread : family.readTarget p with
  | mk result rest =>
    obtain rfl : result = .ok (some target) := by rw [← h, hread]
    simp only [showDetail, hread]

/-- Without a target there is nothing to show, and nothing changes. -/
theorem showDetail_of_no_target {family : DetailFamily} {p : ViewPath}
    (h : ∀ target, (family.readTarget p).1 ≠ .ok (some target)) (s : Session σ) :
    showDetail src family p s =
      ((family.readTarget p).1.map fun _ => .landing family, (family.readTarget p).2, s) := by
  cases hread : family.readTarget p with
  | mk result rest =>
    match result with
    | .error e => simp [showDetail, hread, Except.map]
    | .ok none => simp [showDetail, hread, Except.map]
    | .ok (some target) => exact absurd (by rw [hread]) (h target)

/-- What a detail view is asked keeps the session in step. -/
theorem coherent_showDetail {s : Session σ} (hs : s.details.Coherent) (family : DetailFamily)
    (p : ViewPath) : (showDetail src family p s).2.2.details.Coherent := by
  by_cases h : ∃ target, (family.readTarget p).1 = .ok (some target)
  · obtain ⟨target, htarget⟩ := h
    rw [showDetail_of_target src htarget]
    exact coherent_present src hs
  · rw [showDetail_of_no_target src (not_exists.mp h)]
    exact hs

/-- A detail view asked one path after another. -/
def showAll (asked : List (DetailFamily × ViewPath)) (s : Session σ) : Session σ :=
  asked.foldl (fun s a => (showDetail src a.1 a.2 s).2.2) s

theorem coherent_showAll {s : Session σ} (hs : s.details.Coherent)
    (asked : List (DetailFamily × ViewPath)) : (showAll src asked s).details.Coherent := by
  induction asked generalizing s with
  | nil => exact hs
  | cons a asked ih => exact ih (coherent_showDetail src hs a.1 a.2)

end Session

/-- A use of a source. -/
inductive SourceCall
  | resource (id : ResourceId)
  | group (id : GroupId) (visibility : GroupVisibility)
  | resourceType (id : TypeId)
  | addRecentResource (id : ResourceId)
  | addRecentGroup (id : GroupId)
  deriving DecidableEq, Repr

/-- Whether the source is asked for something; visits are only recorded. -/
def SourceCall.isLookup : SourceCall → Bool
  | .resource _ | .group .. | .resourceType _ => true
  | .addRecentResource _ | .addRecentGroup _ => false

namespace EntitySource

variable {σ : Type}

/-- The source with a list of what it was used for. -/
def traced (src : EntitySource σ) : EntitySource (List SourceCall × σ) :=
  let noting {α : Type} (call : SourceCall) (answer : σ → Except Fault α × σ)
      (s : List SourceCall × σ) : Except Fault α × List SourceCall × σ :=
    ((answer s.2).1, s.1 ++ [call], (answer s.2).2)
  { resource := fun id => noting (.resource id) (src.resource id)
    group := fun id visibility => noting (.group id visibility) (src.group id visibility)
    resourceType := fun id => noting (.resourceType id) (src.resourceType id)
    addRecentResource := fun id => noting (.addRecentResource id) (src.addRecentResource id)
    addRecentGroup := fun id => noting (.addRecentGroup id) (src.addRecentGroup id) }

/-- The call that fetches an entity. -/
def fetchCall : DetailEntity → SourceCall
  | .resource id => .resource id
  | .group id => .group id .visible
  | .autoGroup id => .group id .autoGroup
  | .autoCluster id => .group id .autoCluster

variable (src : EntitySource σ)

theorem fetch_traced (entity : DetailEntity) (calls : List SourceCall) (state : σ) :
    src.traced.fetch entity (calls, state) =
      ((src.fetch entity state).1, calls ++ [fetchCall entity], (src.fetch entity state).2) := by
  cases entity <;> rfl

theorem recordVisit_traced (entity : DetailEntity) (calls : List SourceCall) (state : σ) :
    ∃ made, src.traced.recordVisit entity (calls, state) =
      (calls ++ made, src.recordVisit entity state) := by
  cases entity with
  | resource id => exact ⟨[.addRecentResource id], rfl⟩
  | group id => exact ⟨[.addRecentGroup id], rfl⟩
  | autoGroup | autoCluster => exact ⟨[], by simp [recordVisit]⟩

/-- Loading begins with fetching the entity, and noting the calls changes nothing else. -/
theorem loadView_traced (target : DetailTarget) (calls : List SourceCall) (state : σ) :
    ∃ made, src.traced.loadView target (calls, state) =
      ((src.loadView target state).1, calls ++ fetchCall target.entity :: made,
        (src.loadView target state).2) := by
  simp only [loadView, fetch_traced]
  cases src.fetch target.entity state with
  | mk found after =>
    match found with
    | .error e => exact ⟨[], rfl⟩
    | .ok none => exact ⟨[], rfl⟩
    | .ok (some loaded) =>
      simp only
      cases loaded.typeId? with
      | none => exact ⟨[], rfl⟩
      | some typeId =>
        have htype : src.traced.resourceType typeId (calls ++ [fetchCall target.entity], after) =
            ((src.resourceType typeId after).1,
              calls ++ [fetchCall target.entity] ++ [.resourceType typeId],
              (src.resourceType typeId after).2) := rfl
        refine ⟨[.resourceType typeId], ?_⟩
        simp only [htype]
        cases src.resourceType typeId after with
        | mk found after =>
          match found with
          | .error e => simp
          | .ok none => simp
          | .ok (some t) => simp

end EntitySource

namespace Session

variable {σ : Type} (src : EntitySource σ)

/-- The session with the calls made so far beside its source. -/
def tracing (calls : List SourceCall) (s : Session σ) : Session (List SourceCall × σ) :=
  ⟨s.details, s.posted, (calls, s.source)⟩

theorem load_traced (family : DetailFamily) (target : DetailTarget) (calls : List SourceCall)
    (s : Session σ) :
    ∃ made, load src.traced family target (s.tracing calls) =
      ((load src family target s).1, (load src family target s).2.tracing
        (calls ++ EntitySource.fetchCall target.entity :: made)) := by
  obtain ⟨made, hmade⟩ := src.loadView_traced target calls s.source
  simp only [load, tracing, hmade]
  cases src.loadView target s.source with
  | mk result after =>
    cases result with
    | error reason => exact ⟨made, rfl⟩
    | ok view =>
      obtain ⟨visits, hvisits⟩ := src.recordVisit_traced target.entity
        (calls ++ EntitySource.fetchCall target.entity :: made) after
      exact ⟨made ++ visits, by simp [hvisits]⟩

/-- What the source is asked for when a path is shown. -/
def lookups (family : DetailFamily) (p : ViewPath) (s : Session σ) : List SourceCall :=
  (showDetail src.traced family p (s.tracing [])).2.2.source.1.filter SourceCall.isLookup

theorem lookups_of_shows {family : DetailFamily} {p : ViewPath} {target : DetailTarget}
    {s : Session σ} (hs : s.details.Coherent)
    (htarget : (family.readTarget p).1 = .ok (some target)) (hrefresh : p.refresh = false)
    (hshows : s.details.Shows target.entity) : lookups src family p s = [] := by
  obtain ⟨view, hview, hentity⟩ := hshows
  rw [lookups, showDetail_of_target src.traced htarget, hrefresh,
    present_of_shows src.traced (s := s.tracing []) hs hview hentity]
  rfl

/-- Anything else begins with fetching the entity. -/
theorem lookups_of_not_shows {family : DetailFamily} {p : ViewPath} {target : DetailTarget}
    {s : Session σ} (htarget : (family.readTarget p).1 = .ok (some target))
    (h : ¬(p.refresh = false ∧ s.details.Shows target.entity)) :
    (lookups src family p s).head? = some (EntitySource.fetchCall target.entity) := by
  obtain ⟨made, hmade⟩ := load_traced src target.entity.family target [] s
  have hlookup : (EntitySource.fetchCall target.entity).isLookup := by
    cases target.entity <;> rfl
  rw [lookups, showDetail_of_target src.traced htarget,
    present_of_not_shows src.traced (s := s.tracing []) h, hmade]
  simp only [tracing, List.nil_append, List.filter_cons_of_pos hlookup, List.head?_cons]

/-- In every run a view is kept, and nothing looked up for it, exactly when it is of the entity that
is asked for and no refresh is; anything else is fetched, and shown or led away from. -/
theorem detail_view_kept_iff (state : σ) (earlier : List (DetailFamily × ViewPath)) :
    let s := showAll src earlier (start state)
    s.details.Coherent ∧
      ∀ family p target, (family.readTarget p).1 = .ok (some target) →
        (((∃ view, (showDetail src family p s).1 = .ok (.tabSelected view)) ∧
            lookups src family p s = []) ↔
          p.refresh = false ∧ s.details.Shows target.entity) ∧
        (¬(p.refresh = false ∧ s.details.Shows target.entity) →
          (lookups src family p s).head? = some (EntitySource.fetchCall target.entity) ∧
          ((∃ view, (showDetail src family p s).1 = .ok (.loaded view)) ∨
            (showDetail src family p s).1 = .ok (.redirect inventoryView))) := by
  intro s
  have hs : s.details.Coherent := coherent_showAll src Details.coherent_empty earlier
  refine ⟨hs, fun family p target htarget => ?_⟩
  have hfetched := fun h => lookups_of_not_shows src (s := s) htarget h
  refine ⟨⟨fun ⟨_, hnone⟩ => ?_, fun ⟨hrefresh, hshows⟩ => ?_⟩, fun h => ⟨hfetched h, ?_⟩⟩
  · by_contra h
    have := hfetched h
    simp [hnone] at this
  · obtain ⟨view, hview, hentity⟩ := hshows
    refine ⟨⟨{ view with target }, ?_⟩,
      lookups_of_shows src hs htarget hrefresh ⟨view, hview, hentity⟩⟩
    rw [showDetail_of_target src htarget, hrefresh, present_of_shows src hs hview hentity]
  · rw [showDetail_of_target src htarget, present_of_not_shows src h]
    simpa using load_outcome src target.entity.family target s

end Session

namespace Vanishing

def viewer : Viewer := ⟨[], defaultProduct⟩

def group : ResourceGroup := ⟨⟨7⟩, "Web", none, .mixed, none, none, none⟩

/-- Finds the group once, and after that nothing any more. -/
def source : EntitySource Bool where
  resource _ there := (.ok none, there)
  group _ _ there := (.ok (if there then some group else none), false)
  resourceType _ there := (.ok none, there)
  addRecentResource _ there := (.ok (), there)
  addRecentGroup _ there := (.ok (), there)

def shown : List (DetailFamily × ViewPath) := [(.resourceGroup, .ofToken "7")]

def session : Session Bool := .showAll source shown (.start true)

def events (refresh : Bool) : ViewPath := (ViewPath.ofToken "7/Events").withRefresh refresh

theorem current_session :
    session.details.current = some ⟨⟨.group ⟨7⟩, none, none⟩, .group group, none⟩ := by cbv

theorem readTarget_events (refresh : Bool) :
    (DetailFamily.resourceGroup.readTarget (events refresh)).1 =
      .ok (some ⟨.group ⟨7⟩, some "Events", none⟩) := by
  cases refresh <;> cbv

/-- Its events are shown without asking for the group, until they are asked for anew. -/
theorem detail_view_kept_iff_vanishing :
    Session.lookups source .resourceGroup (events false) session = [] ∧
      (Session.lookups source .resourceGroup (events true) session).head? =
        some (.group ⟨7⟩ .visible) := by
  have hkept := (Session.detail_view_kept_iff source true shown).2 .resourceGroup
  refine ⟨((hkept (events false) _ (readTarget_events false)).1.mpr ⟨rfl, ?_⟩).2,
    ((hkept (events true) _ (readTarget_events true)).2 fun h => ?_).1⟩
  · exact ⟨_, current_session, rfl⟩
  · exact absurd h.1 (by simp [events, ViewPath.withRefresh])

end Vanishing

end FleetConsole.Navigation
