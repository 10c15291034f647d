import FleetConsole.Proofs.NavigationFailures
import FleetConsole.Proofs.ViewPaths

/-! The text that a path is shown as, read as a path. It gives the segments again unless the first
of them begins with a hash sign: signs in front of a token do not count, but those behind a slash or
a blank do. -/
namespace FleetConsole.Navigation

namespace ViewPath

open Text

/-- What the segments of a path become when its text is read. -/
def reread : List String → List String
  | [] => []
  | first :: rest => cut (first.toList.dropWhile (· = '#')) ++ rest

theorem segmentsOf_text (token : String) :
    segmentsOf (ofToken token).text = reread (segmentsOf token) := by
  have hsegments : ∀ s ∈ segmentsOf token, IsSegment s := fun s hs => isSegment_of_mem_segmentsOf hs
  rw [text, join, ofToken]
  cases h : segmentsOf token with
  | nil => rfl
  | cons first rest =>
    rw [h] at hsegments
    exact segmentsOf_joinWith_cons hsegments

theorem head?_text {p : ViewPath} {first : String} {rest : List String}
    (h : p.segments = first :: rest) (hfirst : first.toList ≠ []) :
    p.text.toList.head? = first.toList.head? := by
  rw [text, join, h, toList_joinWith_cons, List.head?_append_of_ne_nil _ hfirst]

/-- Without its first character, a segment is too short to be cut out again. -/
theorem cut_dropWhile_hash_ne {first : String} (h : IsSegment first)
    (hhash : '#' ∈ first.toList.head?) : cut (first.toList.dropWhile (· = '#')) ≠ [first] := by
  obtain ⟨rest, hrest⟩ : ∃ rest, first.toList = '#' :: rest := List.head?_eq_some_iff.mp hhash
  have hsub : List.Sublist ('#' :: rest |>.dropWhile (· = '#')) rest := by
    rw [List.dropWhile_cons_of_pos (by decide)]
    exact List.dropWhile_sublist _
  have hslash : '/' ∉ ('#' :: rest).dropWhile (· = '#') := fun hmem =>
    h.no_slash (hrest ▸ List.mem_cons_of_mem _ (hsub.mem hmem))
  rw [hrest, cut_of_no_slash hslash]
  split
  · simp
  · intro heq
    have hchars := congrArg String.toList (List.cons.inj heq).1
    rw [String.toList_ofList, hrest] at hchars
    have hlength := ((trimChars_sublist _).trans hsub).length_le
    rw [hchars] at hlength
    exact absurd hlength (by simp)

theorem reread_eq_self_iff {first : String} {rest : List String} (h : IsSegment first) :
    reread (first :: rest) = first :: rest ↔ '#' ∉ first.toList.head? := by
  constructor
  · intro heq hhash
    rw [reread, ← List.singleton_append] at heq
    exact cut_dropWhile_hash_ne h hhash (List.append_cancel_right heq)
  · intro hhash
    rw [reread, cut_dropWhile_hash h hhash, List.singleton_append]

/-- Only a hash sign in front is lost when a path that is shown is read. -/
theorem segmentsOf_text_eq_iff (token : String) :
    segmentsOf (ofToken token).text = segmentsOf token ↔
      '#' ∉ (ofToken token).text.toList.head? := by
  rw [segmentsOf_text]
  cases h : segmentsOf token with
  | nil =>
    have htext : (ofToken token).text = "" := by rw [text, join, ofToken, h, joinWith_nil]
    simp [htext, reread]
  | cons first rest =>
    have hfirst : IsSegment first := isSegment_of_mem_segmentsOf (h ▸ List.mem_cons_self)
    have hsegments : (ofToken token).segments = first :: rest := by rw [segments_ofToken, h]
    rw [head?_text hsegments hfirst.nonempty, reread_eq_self_iff hfirst]

theorem ofToken_text {token : String} (h : '#' ∉ (ofToken token).text.toList.head?) :
    ofToken (ofToken token).text = ofToken token := by
  rw [ofToken, (segmentsOf_text_eq_iff token).mpr h]
  rfl

end ViewPath

namespace Session

variable {σ : Type} (src : EntitySource σ) (viewer : Viewer)

/-- Only the segments of a token count. -/
theorem navigate_congr {token other : String}
    (h : ViewPath.segmentsOf token = ViewPath.segmentsOf other) (refresh : Bool) (s : Session σ) :
    navigate src viewer ⟨token, refresh⟩ s = navigate src viewer ⟨other, refresh⟩ s := by
  have hrender : render src viewer token refresh s = render src viewer other refresh s := by
    simp only [render, ViewPath.ofToken, h]
  simp only [navigate, follow, hrender]

theorem path_blankView (token : String) (refresh : Bool) :
    (blankView viewer token refresh).path = (ViewPath.ofToken token).text := by
  simp only [blankView, ViewPath.text_withRefresh]

theorem route_blankView (token : String) (refresh : Bool) :
    (blankView viewer token refresh).route = some (readToken token refresh).1 := by
  simp only [blankView]

theorem title_blankView (token : String) (refresh : Bool) :
    (blankView viewer token refresh).title = (ViewPath.ofToken token).title viewer.product := by
  simp only [blankView, ViewPath.title_withRefresh]

/-- A view has the route and the title of its path, read again. -/
theorem reread_of_navigate {token : String} {refresh : Bool} {s : Session σ} {state : ViewState}
    (h : (navigate src viewer ⟨token, refresh⟩ s).1 = .ok state)
    (hhash : '#' ∉ state.path.toList.head?) :
    state.route = some (readToken state.path refresh).1 ∧
      state.title = (ViewPath.ofToken state.path).title viewer.product := by
  obtain ⟨current, -, detail, reloaded, hstate⟩ := view_of_navigate src viewer h
  have hpath : state.path = (ViewPath.ofToken current).text := by rw [hstate, path_blankView]
  have hroute : state.route = some (readToken current refresh).1 := by
    rw [hstate, route_blankView]
  have htitle : state.title = (ViewPath.ofToken current).title viewer.product := by
    rw [hstate, title_blankView]
  rw [hpath] at hhash
  have hread : readToken (ViewPath.ofToken current).text refresh = readToken current refresh := by
    rw [readToken, ViewPath.ofToken_text hhash, readToken]
  rw [hpath, hread, ViewPath.ofToken_text hhash]
  exact ⟨hroute, htitle⟩

end Session

/-- The text that a path is shown as gives its segments again exactly if it does not begin with a
hash sign; otherwise the first segment is cut anew, without the signs. Where it does not, the text
leads wherever the token leads, and a view that is shown belongs to the path it shows. -/
theorem shown_path_reread (token : String) :
    let shown := (ViewPath.ofToken token).text
    (ViewPath.ofToken shown).segments = ViewPath.reread (ViewPath.ofToken token).segments ∧
    ((ViewPath.ofToken shown).segments = (ViewPath.ofToken token).segments ↔
      '#' ∉ shown.toList.head?) ∧
    ∀ (σ : Type) (src : EntitySource σ) (viewer : Viewer) (refresh : Bool) (s : Session σ),
      ('#' ∉ shown.toList.head? →
        Session.navigate src viewer ⟨shown, refresh⟩ s =
          Session.navigate src viewer ⟨token, refresh⟩ s) ∧
      ∀ state : ViewState, (Session.navigate src viewer ⟨token, refresh⟩ s).1 = .ok state →
        '#' ∉ state.path.toList.head? →
        state.route = some (readToken state.path refresh).1 ∧
          state.title = (ViewPath.ofToken state.path).title viewer.product := by
  intro shown
  have hiff : ViewPath.segmentsOf shown = ViewPath.segmentsOf token ↔ '#' ∉ shown.toList.head? :=
    ViewPath.segmentsOf_text_eq_iff token
  rw [ViewPath.segments_ofToken, ViewPath.segments_ofToken]
  refine ⟨ViewPath.segmentsOf_text token, hiff, fun σ src viewer refresh s => ⟨fun hhash => ?_,
    fun state hstate hhash => ?_⟩⟩
  · exact Session.navigate_congr src viewer (hiff.mpr hhash) refresh s
  · exact Session.reread_of_navigate src viewer hstate hhash

namespace SignBehindBlank

/-- The first sign is in front of the token, and the others belong to segments. -/
def token : String := " # / Inventory //#a# "

def state : ViewState :=
  { ViewState.initial with
    path := "Inventory/#a#", title := "RHQ: Inventory | #a#", route := some .inventory }

theorem shown_path_reread_inventory :
    (Session.navigate Vanishing.source Vanishing.viewer ⟨token, false⟩ Vanishing.session).1 =
        .ok state ∧
      (Session.navigate Vanishing.source Vanishing.viewer ⟨state.path, false⟩
        Vanishing.session).1 = .ok state ∧
      (readToken state.path false).1 = .inventory := by
  have hshown : (ViewPath.ofToken token).text = state.path := by cbv
  have hhash : '#' ∉ state.path.toList.head? := by decide
  have hstate : (Session.navigate Vanishing.source Vanishing.viewer ⟨token, false⟩
      Vanishing.session).1 = .ok state := by cbv
  obtain ⟨-, -, hviews⟩ := shown_path_reread token
  obtain ⟨hagain, hroute⟩ :=
    hviews Bool Vanishing.source Vanishing.viewer false Vanishing.session
  rw [hshown] at hagain
  refine ⟨hstate, ?_, ?_⟩
  · rw [hagain hhash, hstate]
  · exact (Option.some.inj (hroute state hstate hhash).1).symm

end SignBehindBlank

namespace SignBehindSlash

def token : String := "/#Inventory"

/-- The sign belongs to the segment, but in the text that is shown nothing stands before it. -/
theorem shown_path_leads_elsewhere :
    (ViewPath.ofToken (ViewPath.ofToken token).text).segments ≠ (ViewPath.ofToken token).segments ∧
      (readToken token false).1 = .unknown "#Inventory" ∧
      (readToken (ViewPath.ofToken token).text false).1 = .inventory := by
  refine ⟨by decide, by cbv, by cbv⟩

end SignBehindSlash

end FleetConsole.Navigation
