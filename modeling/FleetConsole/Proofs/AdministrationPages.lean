import FleetConsole.Proofs.NavigationFailures

/-! Who gets to the pages of the administration, and by which paths. The first three segments of the
path decide which page is asked for, and the permissions of the viewer whether it is shown. -/
namespace FleetConsole.Navigation

/-- The segments that name a page. -/
def AdminPage.segments (page : AdminPage) : List String :=
  ["Administration", page.sectionName, page.name]

theorem AdminPage.ofSegments?_eq_some_iff {area name : String} {page : AdminPage} :
    ofSegments? area name = some page ↔ area = page.sectionName ∧ name = page.name := by
  constructor
  · intro h
    have hnames := List.find?_some h
    simp only [Bool.and_eq_true, decide_eq_true_eq] at hnames
    exact ⟨hnames.1.symm, hnames.2.symm⟩
  · rintro ⟨rfl, rfl⟩
    exact ofSegments?_self page

theorem Route.readAdministration_eq_page_iff {p : ViewPath} {page : AdminPage} :
    (readAdministration p).1 = .administration (some page) ↔
      [page.sectionName, page.name] <+: p.remaining := by
  simp only [readAdministration, ViewPath.current?_eq_head?, ViewPath.remaining_advance]
  rcases p.remaining with _ | ⟨area, _ | ⟨name, rest⟩⟩
  · simp
  · simp
  · simp only [List.head?_cons, List.tail_cons, List.cons_prefix_cons, List.nil_prefix, and_true]
    rw [eq_comm (a := page.sectionName), eq_comm (a := page.name),
      ← AdminPage.ofSegments?_eq_some_iff]
    cases AdminPage.ofSegments? area name <;> simp

/-- Only the segments of a page lead to it, whatever follows them. -/
theorem Route.read_eq_page_iff {p : ViewPath} {page : AdminPage} :
    (read p).1 = .administration (some page) ↔ page.segments <+: p.remaining := by
  have hrest : (readAdministration p.advance).1 = .administration (some page) ↔
      [page.sectionName, page.name] <+: p.remaining.tail := by
    rw [← p.remaining_advance]
    exact readAdministration_eq_page_iff
  rw [read, ViewPath.current?_eq_head?, AdminPage.segments]
  cases hremaining : p.remaining with
  | nil => simp
  | cons first rest =>
    rw [hremaining, List.tail_cons] at hrest
    rw [List.cons_prefix_cons, List.head?_cons, ← hrest]
    by_cases hfirst : first = "Administration"
    · subst hfirst
      simp
    · have hother : "Administration" ≠ first := Ne.symm hfirst
      split <;> simp_all

namespace Session

variable {σ : Type} (src : EntitySource σ) (viewer : Viewer)

theorem readToken_eq_page_iff {token : String} {refresh : Bool} {page : AdminPage} :
    (readToken token refresh).1 = .administration (some page) ↔
      page.segments <+: ViewPath.segmentsOf token := by
  rw [readToken, Route.read_eq_page_iff]
  rfl

/-- A view belongs to the route of its path, unless a redirect led to it. -/
theorem route_of_navigate {request : NavigationRequest} {s : Session σ} {state : ViewState}
    (h : (navigate src viewer request s).1 = .ok state) :
    state.route = some (readToken request.path request.refresh).1 ∨
      state.route = some .dashboards ∨ state.route = some .inventory := by
  obtain ⟨token, htoken, detail, reloaded, rfl⟩ := view_of_navigate src viewer h
  rcases htoken with rfl | hled
  · exact .inl rfl
  · exact .inr ((route_of_redirect hled request.refresh).imp (congrArg some) (congrArg some))

theorem names_page_of_navigate {request : NavigationRequest} {s : Session σ} {state : ViewState}
    {page : AdminPage} (h : (navigate src viewer request s).1 = .ok state)
    (hroute : state.route = some (.administration (some page))) :
    page.segments <+: ViewPath.segmentsOf request.path := by
  obtain hown | hled | hled := route_of_navigate src viewer h
  · rw [hroute] at hown
    exact readToken_eq_page_iff.mp (Option.some.inj hown).symm
  · simp [hroute] at hled
  · simp [hroute] at hled

theorem renders_page {request : NavigationRequest} {page : AdminPage}
    (hnames : page.segments <+: ViewPath.segmentsOf request.path)
    (hgranted : ∃ p ∈ page.requiredPermissions, p ∈ viewer.granted) (s : Session σ) :
    Renders src viewer request.refresh 1 request.path s
      (.ok (blankView viewer request.path request.refresh), s) := by
  have hroute : (readToken request.path request.refresh).1 = .administration (some page) :=
    readToken_eq_page_iff.mpr hnames
  have hauthorized : (readToken request.path request.refresh).1.authorize viewer.granted =
      .ok () := by
    rw [hroute]
    exact (Permission.ensureAny_eq_ok_iff _ _).mpr hgranted
  refine .shown ?_
  rw [render_of_authorized src viewer hauthorized, hroute]
  rfl

theorem renders_refusal {request : NavigationRequest} {page : AdminPage}
    (hnames : page.segments <+: ViewPath.segmentsOf request.path)
    (hdenied : ¬∃ p ∈ page.requiredPermissions, p ∈ viewer.granted) (s : Session σ) :
    ∃ e, e.kind = .forbidden ∧
      Renders src viewer request.refresh 1 request.path s (.error e, s) := by
  have hroute : (readToken request.path request.refresh).1 = .administration (some page) :=
    readToken_eq_page_iff.mpr hnames
  rw [← Permission.ensureAny_eq_ok_iff] at hdenied
  cases hrefused : (readToken request.path request.refresh).1.authorize viewer.granted with
  | error e =>
    exact ⟨e, Route.kind_of_authorize hrefused, .refused (render_of_refused src viewer hrefused s)⟩
  | ok _ =>
    rw [hroute] at hrefused
    exact absurd hrefused hdenied

/-- A page of the administration is shown exactly for the paths that begin with its three segments,
and only to viewers with one of the permissions it asks for; others are refused. Whatever was
requested before does not matter, nothing changes, and no redirect leads to a page. -/
theorem administration_page_iff (request : NavigationRequest) (s : Session σ) (page : AdminPage) :
    let answer := (navigate src viewer request s).1
    let after := (navigate src viewer request s).2
    let names :=
      ["Administration", page.sectionName, page.name] <+: ViewPath.segmentsOf request.path
    ((∃ state, answer = .ok state ∧ state.route = some (.administration (some page))) ↔
      names ∧ ∃ p ∈ page.requiredPermissions, p ∈ viewer.granted) ∧
    (names → (∀ p ∈ page.requiredPermissions, p ∉ viewer.granted) →
      ∃ e, answer = .error e ∧ e.kind = .forbidden) ∧
    (names → Renders src viewer request.refresh 1 request.path s (answer, s) ∧ after = s) := by
  intro answer after names
  have hshown (hnames : names) (hgranted : ∃ p ∈ page.requiredPermissions, p ∈ viewer.granted) :=
    renders_page src viewer hnames hgranted s
  have hrefused (hnames : names)
      (hdenied : ¬∃ p ∈ page.requiredPermissions, p ∈ viewer.granted) :=
    renders_refusal src viewer hnames hdenied s
  have hanswer {result : Except Fault ViewState × Session σ}
      (h : Renders src viewer request.refresh 1 request.path s result) :
      answer = result.1 ∧ after = result.2 := by
    have hnavigate := navigate_of_renders src viewer h (by omega)
    exact ⟨congrArg Prod.fst hnavigate, congrArg Prod.snd hnavigate⟩
  refine ⟨⟨fun ⟨state, hstate, hroute⟩ => ?_, fun ⟨hnames, hgranted⟩ => ?_⟩,
    fun hnames hdenied => ?_, fun hnames => ?_⟩
  · have hnames := names_page_of_navigate src viewer hstate hroute
    refine ⟨hnames, ?_⟩
    by_contra hdenied
    obtain ⟨e, -, hrenders⟩ := hrefused hnames hdenied
    rw [(hanswer hrenders).1] at hstate
    cases hstate
  · refine ⟨_, (hanswer (hshown hnames hgranted)).1, ?_⟩
    exact congrArg some (readToken_eq_page_iff.mpr hnames)
  · obtain ⟨e, hkind, hrenders⟩ := hrefused hnames (by simpa using hdenied)
    exact ⟨e, (hanswer hrenders).1, hkind⟩
  · by_cases hgranted : ∃ p ∈ page.requiredPermissions, p ∈ viewer.granted
    · have hrenders := hshown hnames hgranted
      rw [(hanswer hrenders).1, (hanswer hrenders).2]
      exact ⟨hrenders, rfl⟩
    · obtain ⟨e, -, hrenders⟩ := hrefused hnames hgranted
      rw [(hanswer hrenders).1, (hanswer hrenders).2]
      exact ⟨hrenders, rfl⟩

end Session

namespace Visitor

/-- May see the accounts of others, and nothing else. -/
def viewer : Viewer := ⟨[.viewUsers], defaultProduct⟩

def users : NavigationRequest := ⟨" ##/Administration// Security /Users/5", false⟩

def roles : NavigationRequest := ⟨"Administration/Security/Roles", true⟩

/-- The page of users is shown for a path with hash signs, blanks and empty segments. The one of
roles asks for more. -/
theorem administration_page_iff_visitor :
    (∃ state, (Session.navigate Vanishing.source viewer users Vanishing.session).1 = .ok state ∧
        state.route = some (.administration (some .users))) ∧
      ∃ e, (Session.navigate Vanishing.source viewer roles Vanishing.session).1 = .error e ∧
        e.kind = .forbidden := by
  have husers : AdminPage.users.segments <+: ViewPath.segmentsOf users.path :=
    ⟨["5"], by cbv⟩
  have hroles : AdminPage.roles.segments <+: ViewPath.segmentsOf roles.path :=
    ⟨[], by cbv⟩
  obtain ⟨hshown, -⟩ :=
    Session.administration_page_iff Vanishing.source viewer users Vanishing.session .users
  obtain ⟨-, hrefused, -⟩ :=
    Session.administration_page_iff Vanishing.source viewer roles Vanishing.session .roles
  exact ⟨hshown.mpr ⟨husers, .viewUsers, by decide, by decide⟩, hrefused hroles (by decide)⟩

end Visitor

end FleetConsole.Navigation
