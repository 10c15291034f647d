import FleetConsole.Proofs.NavigationHistory

/-! The lists of entities viewed last, after any run of requests. They hold the ids of what was
fetched, newest first and each once; what a list had to drop never comes to matter again. -/
namespace FleetConsole.Navigation

def DetailEntity.resource? : DetailEntity → Option ResourceId
  | .resource id => some id
  | _ => none

/-- The id of a group that is not hidden. -/
def DetailEntity.group? : DetailEntity → Option GroupId
  | .group id => some id
  | _ => none

/-- The entity that was fetched for a view, if one was. -/
def ViewState.fetched? (state : ViewState) : Option DetailEntity :=
  if state.reloaded then state.detail.map (·.target.entity) else none

/-- The entity that was fetched for an answer. A request that is refused shows none. -/
def fetchedFor? (answer : Except Fault ViewState) : Option DetailEntity :=
  answer.toOption.bind ViewState.fetched?

def DetailOutcome.fetched? : DetailOutcome → Option DetailEntity
  | .loaded view => some view.target.entity
  | _ => none

def Step.fetched? : Step → Option DetailEntity
  | .view state => state.fetched?
  | .redirect _ => none

theorem ViewState.fetched?_after {state : ViewState} (h : state.reloaded = false)
    (outcome : DetailOutcome) : (state.after outcome).fetched? = outcome.fetched? := by
  cases outcome <;>
    simp [after, Step.fetched?, ViewState.fetched?, DetailOutcome.fetched?, h]

theorem ViewState.fetched?_of_no_detail {state : ViewState} (h : state.detail = none) :
    state.fetched? = none := by
  simp [fetched?, h]

/-- The answers to one request after the other. -/
def Session.answers {σ : Type} (src : EntitySource σ) (viewer : Viewer) :
    List NavigationRequest → Session σ → List (Except Fault ViewState)
  | [], _ => []
  | request :: rest, s =>
    (navigate src viewer request s).1 :: answers src viewer rest (navigate src viewer request s).2

/-- The entities fetched for the requests of a run, oldest first. -/
def Session.fetches {σ : Type} (src : EntitySource σ) (viewer : Viewer)
    (requests : List NavigationRequest) (s : Session σ) : List DetailEntity :=
  (answers src viewer requests s).filterMap fetchedFor?

end FleetConsole.Navigation

namespace FleetConsole.Inventory

open Navigation

section Lists

variable {α : Type} [DecidableEq α]

theorem eraseDups_filter (p : α → Bool) (l : List α) :
    (l.filter p).eraseDups = l.eraseDups.filter p := by
  match l with
  | [] => rfl
  | a :: l =>
    have hrest := eraseDups_filter p (l.filter fun b => !b == a)
    by_cases ha : p a
    · rw [List.filter_cons_of_pos ha, List.eraseDups_cons, List.eraseDups_cons,
        List.filter_cons_of_pos ha, ← hrest, List.filter_comm]
    · have hkept : (l.filter fun b => !b == a).filter p = l.filter p := by
        rw [List.filter_filter]
        refine List.filter_congr fun b _ => ?_
        by_cases hb : b = a <;> simp [hb, ha]
      rw [List.filter_cons_of_neg ha, List.eraseDups_cons, List.filter_cons_of_neg ha, ← hrest,
        hkept]
termination_by l.length
decreasing_by exact Nat.lt_succ_of_le (List.length_filter_le _ _)

theorem nodup_eraseDups (l : List α) : l.eraseDups.Nodup := by
  match l with
  | [] => exact List.nodup_nil
  | a :: l =>
    rw [List.eraseDups_cons, eraseDups_filter]
    exact List.nodup_cons.mpr ⟨by simp, (nodup_eraseDups l).filter _⟩

/-- Of ids that differ, only one can be the one that is moved to the front, so that a place more
than needed is kept. -/
theorem take_filter_take {l : List α} (h : l.Nodup) (a : α) (n : Nat) :
    ((l.take (n + 1)).filter (· ≠ a)).take n = (l.filter (· ≠ a)).take n := by
  induction l generalizing n with
  | nil => rfl
  | cons b l ih =>
    rw [List.nodup_cons] at h
    by_cases hb : b = a
    · have hkept : ∀ l' : List α, l' ⊆ l → l'.filter (· ≠ a) = l' := by
        intro l' hl'
        refine List.filter_eq_self.mpr fun c hc => ?_
        have hne : c ≠ a := fun hca => h.1 (hb ▸ hca ▸ hl' hc)
        simpa using hne
      rw [List.take_succ_cons, List.filter_cons_of_neg (by simp [hb]),
        List.filter_cons_of_neg (by simp [hb]), hkept l (List.Subset.refl l),
        hkept _ (List.take_subset n l), List.take_take, Nat.min_self]
    · rw [List.take_succ_cons, List.filter_cons_of_pos (by simp [hb]),
        List.filter_cons_of_pos (by simp [hb])]
      cases n with
      | zero => rfl
      | succ n => rw [List.take_succ_cons, List.take_succ_cons, ih h.2]

theorem remember_take {l : List α} (h : l.Nodup) (a : α) :
    remember a (l.take recentLimit) = (a :: l.filter (· ≠ a)).take recentLimit := by
  rw [remember, recentLimit, List.take_succ_cons, List.take_succ_cons, take_filter_take h]

/-- Ids remembered one after the other are the newest ones, each once. -/
theorem foldl_remember (visited : List α) :
    visited.foldl (fun ids id => remember id ids) [] =
      visited.reverse.eraseDups.take recentLimit := by
  induction visited using List.reverseRecOn with
  | nil => rfl
  | append_singleton visited id ih =>
    have hnewest : (visited ++ [id]).reverse.eraseDups =
        id :: visited.reverse.eraseDups.filter (· ≠ id) := by
      rw [List.reverse_concat, List.eraseDups_cons, eraseDups_filter]
      simp only [beq_eq_decide, decide_not]
    rw [List.foldl_concat, ih, remember_take (nodup_eraseDups _), hnewest]

end Lists

/-- The lists after an entity was viewed. -/
def Recents.visit (recents : Recents) : DetailEntity → Recents
  | .resource id => { recents with resources := remember id recents.resources }
  | .group id => { recents with groups := remember id recents.groups }
  | .autoGroup _ | .autoCluster _ => recents

/-- The lists after an entity was viewed or none was. -/
def Recents.noting (recents : Recents) (fetched : Option DetailEntity) : Recents :=
  fetched.elim recents recents.visit

theorem Recents.resources_foldl_visit (recents : Recents) (visited : List DetailEntity) :
    (visited.foldl visit recents).resources =
      (visited.filterMap DetailEntity.resource?).foldl (fun ids id => remember id ids)
        recents.resources := by
  induction visited generalizing recents with
  | nil => rfl
  | cons e visited ih =>
    rw [List.foldl_cons, ih]
    cases e <;> rfl

theorem Recents.groups_foldl_visit (recents : Recents) (visited : List DetailEntity) :
    (visited.foldl visit recents).groups =
      (visited.filterMap DetailEntity.group?).foldl (fun ids id => remember id ids)
        recents.groups := by
  induction visited generalizing recents with
  | nil => rfl
  | cons e visited ih =>
    rw [List.foldl_cons, ih]
    cases e <;> rfl

theorem Recents.resources_noting {recents : Recents} {fetched : Option DetailEntity}
    (h : ∀ id, fetched ≠ some (.resource id)) :
    (recents.noting fetched).resources = recents.resources := by
  match fetched with
  | none => rfl
  | some (.resource id) => exact absurd rfl (h id)
  | some (.group _) | some (.autoGroup _) | some (.autoCluster _) => rfl

theorem Recents.groups_noting {recents : Recents} {fetched : Option DetailEntity}
    (h : ∀ id, fetched ≠ some (.group id)) :
    (recents.noting fetched).groups = recents.groups := by
  match fetched with
  | none => rfl
  | some (.group id) => exact absurd rfl (h id)
  | some (.resource _) | some (.autoGroup _) | some (.autoCluster _) => rfl

variable (inv : Inventory)

theorem recordVisit_entitySource (entity : DetailEntity) (recents : Recents) :
    inv.entitySource.recordVisit entity recents = recents.visit entity := by
  cases entity <;> rfl

theorem source_load (family : DetailFamily) (target : DetailTarget) (s : Session Recents) :
    (Session.load inv.entitySource family target s).2.source =
      s.source.noting (Session.load inv.entitySource family target s).1.fetched? := by
  simp only [Session.load, loadView_entitySource]
  cases hview : inv.detailView target with
  | error reason => rfl
  | ok view =>
    simp only [recordVisit_entitySource, DetailOutcome.fetched?, inv.target_of_detailView hview]
    rfl

/-- What is kept on another tab is not recorded. -/
theorem source_present (target : DetailTarget) (refresh : Bool) (s : Session Recents) :
    (Session.present inv.entitySource target.entity.family target refresh s).2.source =
      s.source.noting
        (Session.present inv.entitySource target.entity.family target refresh s).1.fetched? := by
  by_cases hkeeps : s.details.Keeps target.entity.family target refresh
  · obtain ⟨rfl, hloaded, view, hview, hentity⟩ := hkeeps
    rw [Session.present_of_loaded inv.entitySource hloaded hview hentity]
    rfl
  · rw [Session.present_of_not_keeps inv.entitySource hkeeps]
    exact inv.source_load _ target s

theorem source_showDetail (family : DetailFamily) (p : ViewPath) (s : Session Recents) :
    (Session.showDetail inv.entitySource family p s).2.2.source =
      s.source.noting ((Session.showDetail inv.entitySource family p s).1.toOption.bind
        DetailOutcome.fetched?) := by
  by_cases h : ∃ target, (family.readTarget p).1 = .ok (some target)
  · obtain ⟨target, htarget⟩ := h
    rw [Session.showDetail_of_target inv.entitySource htarget]
    exact inv.source_present target p.refresh s
  · rw [Session.showDetail_of_no_target inv.entitySource (not_exists.mp h)]
    cases (family.readTarget p).1 <;> rfl

theorem source_render (viewer : Viewer) (token : String) (refresh : Bool) (s : Session Recents) :
    (Session.render inv.entitySource viewer token refresh s).2.source =
      s.source.noting ((Session.render inv.entitySource viewer token refresh s).1.toOption.bind
        Step.fetched?) := by
  rcases Session.render_cases inv.entitySource viewer token refresh with
    ⟨result, hrender, hresult⟩ | ⟨family, -, hrender⟩
  · rw [hrender]
    cases result with
    | error e => rfl
    | ok step =>
      obtain rfl | ⟨state, rfl, hdetail⟩ := hresult step rfl
      · rfl
      · simp only [Except.toOption, Option.bind_some, Step.fetched?,
          ViewState.fetched?_of_no_detail hdetail]
        rfl
  · simp only [hrender, inv.source_showDetail]
    cases (Session.showDetail inv.entitySource family (readToken token refresh).2 s).1 with
    | error e => rfl
    | ok outcome =>
      have hblank : (blankView viewer token refresh).reloaded = false := rfl
      simp only [Except.map, Except.toOption, Option.bind_some, ViewState.fetched?_after hblank]

theorem source_follow (viewer : Viewer) (refresh : Bool) (renderings : Nat) (token : String)
    (s : Session Recents) :
    (Session.follow inv.entitySource viewer refresh renderings token s).2.source =
      s.source.noting
        (fetchedFor? (Session.follow inv.entitySource viewer refresh renderings token s).1) := by
  induction renderings generalizing token s with
  | zero => rfl
  | succ renderings ih =>
    have hsource := inv.source_render viewer token refresh s
    unfold Session.follow
    cases hrender : Session.render inv.entitySource viewer token refresh s with
    | mk result after =>
      rw [hrender] at hsource
      cases result with
      | error e => exact hsource
      | ok step =>
        cases step with
        | view state => exact hsource
        | redirect path =>
          have hkept : after.source = s.source := hsource
          rw [← hkept]
          exact ih path after

/-- A request records the entity that was fetched for its answer, and nothing else. -/
theorem source_navigate (viewer : Viewer) (request : NavigationRequest) (s : Session Recents) :
    (Session.navigate inv.entitySource viewer request s).2.source =
      s.source.noting (fetchedFor? (Session.navigate inv.entitySource viewer request s).1) := by
  rw [Session.navigate]
  exact inv.source_follow viewer request.refresh 3 request.path s

theorem source_navigateAll (viewer : Viewer) (requests : List NavigationRequest)
    (s : Session Recents) :
    (Session.navigateAll inv.entitySource viewer requests s).source =
      (Session.fetches inv.entitySource viewer requests s).foldl Recents.visit s.source := by
  induction requests generalizing s with
  | nil => rfl
  | cons request requests ih =>
    rw [Session.navigateAll, List.foldl_cons, ← Session.navigateAll, ih, source_navigate,
      Session.fetches, Session.fetches, Session.answers]
    cases hfetched : fetchedFor? (Session.navigate inv.entitySource viewer request s).1 with
    | none => rw [List.filterMap_cons_none hfetched]; rfl
    | some e => rw [List.filterMap_cons_some hfetched]; rfl

/-- After any run of requests the lists hold the last ten resources and the last ten groups that
were fetched for an answer, each once and newest first. A request for which no resource is fetched
leaves the resources as they are, and one for which no group is fetched leaves the groups. -/
theorem recents_newest_distinct (viewer : Viewer) (requests : List NavigationRequest) :
    let s := Session.navigateAll inv.entitySource viewer requests (Session.start .empty)
    let fetched :=
      (Session.fetches inv.entitySource viewer requests (Session.start .empty)).reverse
    s.source.resources = (fetched.filterMap DetailEntity.resource?).eraseDups.take 10 ∧
    s.source.groups = (fetched.filterMap DetailEntity.group?).eraseDups.take 10 ∧
    (s.source.resources.Nodup ∧ s.source.resources.length ≤ 10) ∧
    (s.source.groups.Nodup ∧ s.source.groups.length ≤ 10) ∧
    ∀ request,
      let next := Session.navigate inv.entitySource viewer request s
      ((∀ id, fetchedFor? next.1 ≠ some (.resource id)) →
        next.2.source.resources = s.source.resources) ∧
      ((∀ id, fetchedFor? next.1 ≠ some (.group id)) →
        next.2.source.groups = s.source.groups) := by
  intro s fetched
  have hsource := inv.source_navigateAll viewer requests (Session.start .empty)
  have hresources : s.source.resources =
      (fetched.filterMap DetailEntity.resource?).eraseDups.take 10 := by
    rw [hsource, Recents.resources_foldl_visit, List.filterMap_reverse]
    exact foldl_remember _
  have hgroups : s.source.groups =
      (fetched.filterMap DetailEntity.group?).eraseDups.take 10 := by
    rw [hsource, Recents.groups_foldl_visit, List.filterMap_reverse]
    exact foldl_remember _
  have hbounds {α : Type} [DecidableEq α] (l : List α) :
      (l.eraseDups.take 10).Nodup ∧ (l.eraseDups.take 10).length ≤ 10 :=
    ⟨(nodup_eraseDups l).sublist (List.take_sublist 10 _), List.length_take_le 10 _⟩
  refine ⟨hresources, hgroups, hresources ▸ hbounds _, hgroups ▸ hbounds _,
    fun request => ⟨fun h => ?_, fun h => ?_⟩⟩
  · rw [inv.source_navigate viewer request s]
    exact Recents.resources_noting h
  · rw [inv.source_navigate viewer request s]
    exact Recents.groups_noting h

namespace ElevenHosts

def linux : ResourceType := ⟨⟨1⟩, "Linux", "Platforms", .platform, none, true, none, []⟩

def host (id : Int32) : Resource := ⟨⟨id⟩, "host", none, none, ⟨1⟩, .up, none⟩

def ids : List Int32 := [1, 2, 3, 4, 5, 6, 7, 8, 9, 10, 11]

def inventory : Inventory :=
  { Inventory.empty with
    catalog := Catalog.empty.insertType linux, resources := ids.map host }

def viewer : Viewer := ⟨[], defaultProduct⟩

/-- Every host once, and then the third of them again. -/
def requests : List NavigationRequest :=
  (ids ++ [3]).map fun id => ⟨"Resource/" ++ idText id, false⟩

def session : Session Recents :=
  Session.navigateAll inventory.entitySource viewer requests (Session.start .empty)

/-- The host seen last, on another tab. -/
def tab : NavigationRequest := ⟨"Resource/3/Events", false⟩

theorem fetches_requests :
    Session.fetches inventory.entitySource viewer requests (Session.start .empty) =
      (ids ++ [3]).map fun id => .resource ⟨id⟩ := by
  cbv

theorem fetchedFor?_tab :
    fetchedFor? (Session.navigate inventory.entitySource viewer tab session).1 = none := by
  cbv

/-- The first host is the one that is dropped, and another tab of the third changes nothing. -/
theorem recents_newest_distinct_eleven_hosts :
    session.source.resources = [3, 11, 10, 9, 8, 7, 6, 5, 4, 2].map ResourceId.mk ∧
      (Session.navigate inventory.entitySource viewer tab session).2.source.resources =
        session.source.resources := by
  obtain ⟨hresources, -, -, -, hnext⟩ := inventory.recents_newest_distinct viewer requests
  have hnewest : (((ids ++ [3]).map fun id => DetailEntity.resource ⟨id⟩).reverse.filterMap
      DetailEntity.resource?).eraseDups.take 10 =
        [3, 11, 10, 9, 8, 7, 6, 5, 4, 2].map ResourceId.mk := by
    cbv
  have htab := fetchedFor?_tab
  rw [session] at htab ⊢
  refine ⟨?_, (hnext tab).1 fun id hid => ?_⟩
  · rw [hresources, fetches_requests, hnewest]
  · rw [htab] at hid
    cases hid

end ElevenHosts

end FleetConsole.Inventory
