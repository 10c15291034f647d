import FleetConsole.Proofs.ViewPaths

/-! What a detail view reads off the rest of a path: nothing before an id, an entity of its family
with its tabs, or a refusal of what is no id. The path that names the target read is read as it. -/
namespace FleetConsole.Navigation

namespace DetailFamily

theorem no_id_or_idAt (f : DetailFamily) (segments : List String) :
    (segments = [] ∨ segments = [f.hiddenSegment]) ∨
      ∃ hidden segment rest, f.IdAt segments hidden segment rest := by
  match segments with
  | [] => exact .inl (.inl rfl)
  | [first] =>
    by_cases h : first = f.hiddenSegment
    · exact .inl (.inr (by rw [h]))
    · exact .inr ⟨_, _, _, .first h⟩
  | first :: second :: rest =>
    by_cases h : first = f.hiddenSegment
    · exact .inr ⟨true, second, rest, h ▸ .hidden⟩
    · exact .inr ⟨_, _, _, .first h⟩

theorem IdAt.mem_of_mem_rest {f : DetailFamily} {segments rest : List String} {hidden : Bool}
    {segment s : String} (h : f.IdAt segments hidden segment rest) (hs : s ∈ rest) :
    s ∈ segments := by
  cases h <;> simp [hs]

/-- The refusal of a segment that is no id. -/
def notAnId (segment : String) : Fault :=
  .invalid "Invalid entity id in view path" ("expected numeric id, got " ++ segment)

theorem readEntity_of_not_denotes {f : DetailFamily} {hidden : Bool} {segment : String}
    (h : ∀ n : Int32, ¬Number.Denotes segment.toList n.toInt) (p : ViewPath) :
    (f.readEntity hidden segment p).1 = .error (notAnId segment) := by
  have hnone : segmentId? segment = none :=
    Option.eq_none_iff_forall_not_mem.mpr fun n hn => h n (segmentId?_eq_some_iff.mp hn)
  rw [readEntity, hnone]
  rfl

theorem segments_readTabs (entity : DetailEntity) (p : ViewPath) :
    (readTabs entity p).2.segments = p.segments ∧ (readTabs entity p).2.refresh = p.refresh := by
  unfold readTabs
  simp only
  split
  · simp
  · split <;> simp

theorem segments_readEntity (f : DetailFamily) (hidden : Bool) (segment : String) (p : ViewPath) :
    (f.readEntity hidden segment p).2.segments = p.segments ∧
      (f.readEntity hidden segment p).2.refresh = p.refresh := by
  unfold readEntity
  split
  · exact ⟨rfl, rfl⟩
  · exact segments_readTabs _ p

/-- Reading moves the cursor only. -/
theorem segments_readTarget (f : DetailFamily) (p : ViewPath) :
    (f.readTarget p).2.segments = p.segments ∧ (f.readTarget p).2.refresh = p.refresh := by
  unfold readTarget
  split
  · exact ⟨rfl, rfl⟩
  · simp only
    split
    · split
      · simp
      · have hadvance := f.segments_readEntity true ‹_› p.advance
        simpa using hadvance
    · exact f.segments_readEntity false _ p

theorem readTarget_of_denotes {f : DetailFamily} {p : ViewPath} {hidden : Bool} {segment : String}
    {rest : List String} {n : Int32} (h : f.IdAt p.remaining hidden segment rest)
    (hid : Number.Denotes segment.toList n.toInt) :
    (f.readTarget p).1 = .ok (some ⟨f.entity hidden n, rest[0]?, rest[1]?⟩) ∧
      (f.readTarget p).2.remaining = rest.drop 2 := by
  obtain ⟨q, hq, hread⟩ := readTarget_of_idAt h
  rw [hread]
  exact readEntity_of_denotes hid hq

theorem readTarget_of_not_denotes {f : DetailFamily} {p : ViewPath} {hidden : Bool}
    {segment : String} {rest : List String} (h : f.IdAt p.remaining hidden segment rest)
    (hid : ∀ n : Int32, ¬Number.Denotes segment.toList n.toInt) :
    (f.readTarget p).1 = .error (notAnId segment) := by
  obtain ⟨q, -, hread⟩ := readTarget_of_idAt h
  rw [hread]
  exact readEntity_of_not_denotes hid q

/-- The path ends before an id, what stands in its place is none, or an entity is read. -/
theorem readTarget_outcome (f : DetailFamily) (p : ViewPath) :
    ((f.readTarget p).1 = .ok none ∧ (p.remaining = [] ∨ p.remaining = [f.hiddenSegment])) ∨
    ∃ hidden segment rest, f.IdAt p.remaining hidden segment rest ∧
      ((∀ n : Int32, ¬Number.Denotes segment.toList n.toInt) ∧
          (f.readTarget p).1 = .error (notAnId segment) ∨
        ∃ n : Int32, Number.Denotes segment.toList n.toInt ∧
          (f.readTarget p).1 = .ok (some ⟨f.entity hidden n, rest[0]?, rest[1]?⟩)) := by
  rcases f.no_id_or_idAt p.remaining with hnone | ⟨hidden, segment, rest, h⟩
  · exact .inl ⟨(readTarget_of_no_id hnone).1, hnone⟩
  · refine .inr ⟨hidden, segment, rest, h, ?_⟩
    by_cases hid : ∃ n : Int32, Number.Denotes segment.toList n.toInt
    · obtain ⟨n, hn⟩ := hid
      exact .inr ⟨n, hn, (readTarget_of_denotes h hn).1⟩
    · have hnot := not_exists.mp hid
      exact .inl ⟨hnot, readTarget_of_not_denotes h hnot⟩

theorem readTarget_eq_none_iff {f : DetailFamily} {p : ViewPath} :
    (f.readTarget p).1 = .ok none ↔ p.remaining = [] ∨ p.remaining = [f.hiddenSegment] := by
  refine ⟨fun h => ?_, fun h => (readTarget_of_no_id h).1⟩
  obtain ⟨-, hnone⟩ | ⟨hidden, segment, rest, -, ⟨-, hanswer⟩ | ⟨n, -, hanswer⟩⟩ :=
    f.readTarget_outcome p
  · exact hnone
  · simp [hanswer] at h
  · simp [hanswer] at h

theorem readTarget_eq_error_iff {f : DetailFamily} {p : ViewPath} {e : Fault} :
    (f.readTarget p).1 = .error e ↔
      ∃ hidden segment rest, f.IdAt p.remaining hidden segment rest ∧
        (∀ n : Int32, ¬Number.Denotes segment.toList n.toInt) ∧ e = notAnId segment := by
  constructor
  · intro h
    obtain ⟨hanswer, -⟩ | ⟨hidden, segment, rest, hat, ⟨hid, hanswer⟩ | ⟨n, -, hanswer⟩⟩ :=
      f.readTarget_outcome p
    · simp [hanswer] at h
    · rw [hanswer] at h
      exact ⟨hidden, segment, rest, hat, hid, (Except.error.inj h).symm⟩
    · simp [hanswer] at h
  · rintro ⟨hidden, segment, rest, hat, hid, rfl⟩
    exact readTarget_of_not_denotes hat hid

theorem readTarget_eq_some_iff {f : DetailFamily} {p : ViewPath} {t : DetailTarget} :
    (f.readTarget p).1 = .ok (some t) ↔
      ∃ hidden segment rest, ∃ n : Int32, f.IdAt p.remaining hidden segment rest ∧
        Number.Denotes segment.toList n.toInt ∧ t = ⟨f.entity hidden n, rest[0]?, rest[1]?⟩ := by
  constructor
  · intro h
    obtain ⟨hanswer, -⟩ | ⟨hidden, segment, rest, hat, ⟨-, hanswer⟩ | ⟨n, hid, hanswer⟩⟩ :=
      f.readTarget_outcome p
    · simp [hanswer] at h
    · simp [hanswer] at h
    · rw [hanswer] at h
      exact ⟨hidden, segment, rest, n, hat, hid, (Option.some.inj (Except.ok.inj h)).symm⟩
  · rintro ⟨hidden, segment, rest, n, hat, hid, rfl⟩
    exact (readTarget_of_denotes hat hid).1

theorem segments_entity (f : DetailFamily) (hidden : Bool) (n : Int32) :
    (f.entity hidden n).segments = f.name :: f.idSegments hidden n := by
  cases f <;> cases hidden <;> rfl

theorem hash_notMem_name (f : DetailFamily) : '#' ∉ f.name.toList.head? := by
  cases f <;> decide

end DetailFamily

namespace DetailTarget

/-- The tab and the subtab as they stand in a path. -/
def tabs (t : DetailTarget) : List String := t.tab.toList ++ t.subtab.toList

theorem viewPath_eq_joinWith (t : DetailTarget) :
    t.viewPath = Text.joinWith "/" (t.entity.segments ++ t.tabs) := by
  rw [viewPath, ← tabs, t.entity.text_eq_joinWith]
  cases htabs : t.tabs with
  | nil => simp
  | cons tab rest =>
    rw [Text.joinWith_append t.entity.segments_ne_nil (List.cons_ne_nil tab rest)]
    rfl

end DetailTarget

/-- The path that names what was read off a token is read as it, to its end. -/
theorem reread_viewPath {f : DetailFamily} {p : ViewPath} {token : String} {t : DetailTarget}
    (hsegments : p.segments = ViewPath.segmentsOf token)
    (h : (f.readTarget p).1 = .ok (some t)) :
    let again := Route.read (.ofToken t.viewPath)
    again.1.detailFamily? = some f ∧ (f.readTarget again.2).1 = .ok (some t) ∧
      (f.readTarget again.2).2.remaining = [] := by
  obtain ⟨hidden, segment, rest, n, hat, -, rfl⟩ := DetailFamily.readTarget_eq_some_iff.mp h
  intro again
  have htabs : DetailTarget.tabs ⟨f.entity hidden n, rest[0]?, rest[1]?⟩ = rest.take 2 := by
    rcases rest with _ | ⟨tab, _ | ⟨subtab, rest⟩⟩ <;> rfl
  have hplain : ∀ s ∈ (f.entity hidden n).segments, ViewPath.IsSegment s := fun s hs =>
    (DetailEntity.isPlain_of_mem_segments hs).isSegment
  have hrest : ∀ s ∈ rest.take 2, ViewPath.IsSegment s := by
    intro s hs
    have hpath := hat.mem_of_mem_rest (List.mem_of_mem_take hs)
    exact ViewPath.isSegment_of_mem_segmentsOf (hsegments ▸ List.mem_of_mem_drop hpath)
  have hagain : (ViewPath.ofToken
      (DetailTarget.viewPath ⟨f.entity hidden n, rest[0]?, rest[1]?⟩)).remaining =
        f.name :: (f.idSegments hidden n ++ rest.take 2) := by
    rw [ViewPath.remaining_ofToken, DetailTarget.viewPath_eq_joinWith, htabs]
    rw [f.segments_entity] at hplain ⊢
    exact ViewPath.segmentsOf_joinWith (List.forall_mem_append.mpr ⟨hplain, hrest⟩)
      f.hash_notMem_name
  obtain ⟨hfamily, hremaining⟩ := Route.read_family f hagain
  obtain ⟨hanswer, hleft⟩ := f.readTarget_idSegments hidden n hremaining
  refine ⟨hfamily, ?_, ?_⟩
  · rw [hanswer]
    simp
  · rw [hleft]
    simp

/-- What is read off the rest of a path. Nothing, if the path ends before an id; a refusal, if what
stands in its place is no numeral of an id; otherwise the entity of the id, with the two segments
behind it as tab and subtab, and the rest is left. The path that names a target read off a token is
read as that target, and nothing is left. -/
theorem readTarget_reads (f : DetailFamily) (p : ViewPath) :
    let answer := (f.readTarget p).1
    let after := (f.readTarget p).2
    (answer = .ok none ↔ p.remaining = [] ∨ p.remaining = [f.hiddenSegment]) ∧
    (∀ e, answer = .error e ↔
      ∃ hidden segment rest, f.IdAt p.remaining hidden segment rest ∧
        (∀ n : Int32, ¬Number.Denotes segment.toList n.toInt) ∧
        e = .invalid "Invalid entity id in view path" ("expected numeric id, got " ++ segment)) ∧
    (∀ t, answer = .ok (some t) ↔
      ∃ hidden segment rest, ∃ n : Int32, f.IdAt p.remaining hidden segment rest ∧
        Number.Denotes segment.toList n.toInt ∧ t = ⟨f.entity hidden n, rest[0]?, rest[1]?⟩) ∧
    (∀ hidden segment rest, ∀ n : Int32, f.IdAt p.remaining hidden segment rest →
      Number.Denotes segment.toList n.toInt → after.remaining = rest.drop 2) ∧
    after.segments = p.segments ∧ after.refresh = p.refresh ∧
    ∀ token t, p.segments = ViewPath.segmentsOf token → answer = .ok (some t) →
      let again := Route.read (.ofToken t.viewPath)
      again.1.detailFamily? = some f ∧ (f.readTarget again.2).1 = .ok (some t) ∧
        (f.readTarget again.2).2.remaining = [] := by
  intro answer after
  exact ⟨DetailFamily.readTarget_eq_none_iff, fun e => DetailFamily.readTarget_eq_error_iff,
    fun t => DetailFamily.readTarget_eq_some_iff,
    fun hidden segment rest n hat hid => (DetailFamily.readTarget_of_denotes hat hid).2,
    (f.segments_readTarget p).1, (f.segments_readTarget p).2,
    fun token t hsegments h => reread_viewPath hsegments h⟩

namespace SignedId

def token : String := "#Resource / AutoGroup/+007//#Events/History/9"

def path : ViewPath := (Route.read (.ofToken token)).2

def target : DetailTarget := ⟨.autoGroup ⟨7⟩, some "#Events", some "History"⟩

/-- The sign and the zeros of an id are gone from the path that names the target. -/
theorem readTarget_reads_signed :
    (DetailFamily.resource.readTarget path).1 = .ok (some target) ∧
      (DetailFamily.resource.readTarget path).2.remaining = ["9"] ∧
      target.viewPath = "Resource/AutoGroup/7/#Events/History" ∧
      (DetailFamily.resource.readTarget (Route.read (.ofToken target.viewPath)).2).1 =
        .ok (some target) := by
  have hremaining : path.remaining = ["AutoGroup", "+007", "#Events", "History", "9"] := by cbv
  have hat : DetailFamily.resource.IdAt path.remaining true "+007" ["#Events", "History", "9"] := by
    rw [hremaining]
    exact .hidden
  have hid : Number.Denotes "+007".toList (7 : Int32).toInt :=
    DetailFamily.segmentId?_eq_some_iff.mp (by cbv)
  obtain ⟨-, -, hsome, hleft, -, -, hagain⟩ := readTarget_reads .resource path
  have hread := (hsome target).mpr ⟨_, _, _, 7, hat, hid, rfl⟩
  have hsegments : path.segments = ViewPath.segmentsOf token := by cbv
  exact ⟨hread, hleft _ _ _ _ hat hid, by cbv, (hagain token target hsegments hread).2.1⟩

end SignedId

end FleetConsole.Navigation
