import FleetConsole.Proofs.ViewPaths
import FleetConsole.Report.Criteria

/-! The links that reports write, followed back into the console. The link of a row opens the view of
what the row is about, on the tabs that show it. -/
namespace FleetConsole.Report

open Navigation

/-- Where the link of a row leads. -/
inductive Destination
  /-- The console itself, on none of its views. -/
  | console
  | view (target : DetailTarget)
  deriving DecidableEq, Repr

def ResourceRef.onSubtab (r : ResourceRef) (tab subtab : String) : Destination :=
  .view ⟨.resource r.id, some tab, some subtab⟩

/-- The view of what the definition of the alert belongs to; templates have none. -/
def AlertRow.destination (row : AlertRow) : Destination :=
  match row.context with
  | .resource => row.resource.onSubtab "Alerts" "History"
  | .group id true => .view ⟨.autoGroup id, some "Alerts", some "History"⟩
  | .group id false => .view ⟨.group id, some "Alerts", some "History"⟩
  | .template => .console

/-- The destination of a row, if rows of the report have links. -/
def Criteria.destination? : (c : Criteria) → c.Row → Option Destination
  | .inventorySummary, _ => none
  | .inventoryDetails _, row => some (.view ⟨.resource row.resource.id, none, none⟩)
  | .alertDefinitions, row => some (row.resource.onSubtab "Alerts" "Definitions")
  | .configurationHistory, row => some (row.resource.onSubtab "Configuration" "History")
  | .driftCompliance _, row => some (row.resource.onSubtab "Drift" "Definitions")
  | .suspectMetrics, row => some (row.resource.onSubtab "Monitoring" "Metrics")
  | .recentAlerts _, row => some (AlertRow.destination row)
  | .recentOperations _, row => some (row.resource.onSubtab "Operations" "History")
  | .recentDrift _, row => some (row.resource.onSubtab "Drift" "History")

/-- What stands in the column of links, if there is one. -/
def Layout.detailsUrl? {Row : Type} (l : Layout Row) (base : LinkBase) (row : Row) :
    Option String :=
  ((l.tags.zip (l.fields base row)).find? fun field => field.1 = "detailsUrl").map (·.2)

namespace LinkBase

/-- A link leads to a view if what follows the hash sign opens it. -/
def LeadsTo (base : LinkBase) (url : String) : Destination → Prop
  | .console => url = base.url ++ "/coregui"
  | .view target =>
    ∃ fragment, url = base.url ++ "/coregui" ++ "/#" ++ fragment ∧ Opens ("#" ++ fragment) target

variable (base : LinkBase)

theorem leadsTo_resource (id : ResourceId) :
    base.LeadsTo (base.resourceUrl id "") (.view ⟨.resource id, none, none⟩) :=
  ⟨_, rfl, opens_entity (.resource id)⟩

theorem leadsTo_subtab (e : DetailEntity) {path tab subtab : String}
    (h : NamesSubtab path tab subtab) :
    base.LeadsTo (base.detailUrl (e.text ++ "/" ++ path)) (.view ⟨e, some tab, some subtab⟩) :=
  ⟨_, rfl, opens_subtab e h⟩

theorem leadsTo_resource_subtab (r : ResourceRef) {path tab subtab : String}
    (h : NamesSubtab path tab subtab) :
    base.LeadsTo (base.resourceUrl r.id path) (r.onSubtab tab subtab) := by
  have hpath : LinkBase.resourcePath r.id path = (DetailEntity.resource r.id).text ++ "/" ++ path :=
    if_neg h.ne_empty
  rw [resourceUrl, hpath]
  exact base.leadsTo_subtab (.resource r.id) h

theorem leadsTo_alert (row : AlertRow) : base.LeadsTo (row.detailsUrl base) row.destination := by
  have hhistory : NamesSubtab ("Alerts/History/" ++ idText row.id) "Alerts" "History" := by
    refine .behind ?_ ?_ ?_ _ <;> decide
  unfold AlertRow.detailsUrl AlertRow.destination
  cases row.context with
  | resource => exact base.leadsTo_resource_subtab _ hhistory
  | group id autoGroup =>
    cases autoGroup with
    | false => exact base.leadsTo_subtab (.group id) hhistory
    | true => exact base.leadsTo_subtab (.autoGroup id) hhistory
  | template => rfl

/-- Slashes at the end of an address do not count. -/
theorem ofUrl_append_slashes (url : String) (n : Nat) :
    ofUrl (url ++ String.ofList (List.replicate n '/')) = ofUrl url := by
  have hslashes : ∀ c ∈ (List.replicate n '/').reverse, decide (c = '/') = true := by
    simp
  rw [ofUrl, ofUrl, String.toList_append, String.toList_ofList, Text.dropTrailing,
    Text.dropTrailing, List.reverse_append, List.dropWhile_append_of_pos hslashes]

end LinkBase

/-- The link of a row leads to its destination, whatever the address of the console, the ids and the
texts of the row are; and slashes at the end of the address change no link. -/
theorem detail_links_lead_back (c : Criteria) (row : c.Row) :
    (∀ base : LinkBase,
      Option.Rel base.LeadsTo (c.layout.detailsUrl? base row) (c.destination? row)) ∧
    ∀ (url : String) (n : Nat),
      c.layout.detailsUrl? (.ofUrl (url ++ String.ofList (List.replicate n '/'))) row =
        c.layout.detailsUrl? (.ofUrl url) row := by
  refine ⟨fun base => ?_, fun url n => by rw [LinkBase.ofUrl_append_slashes]⟩
  cases c with
  | inventorySummary => exact .none
  | inventoryDetails f => exact .some (base.leadsTo_resource _)
  | alertDefinitions =>
    refine .some (base.leadsTo_resource_subtab _ (.behind ?_ ?_ ?_ _)) <;> decide
  | configurationHistory =>
    refine .some (base.leadsTo_resource_subtab _ (.behind ?_ ?_ ?_ _)) <;> decide
  | driftCompliance f =>
    refine .some (base.leadsTo_resource_subtab _ (.bare ?_ ?_ ?_)) <;> decide
  | suspectMetrics =>
    refine .some (base.leadsTo_resource_subtab _ (.bare ?_ ?_ ?_)) <;> decide
  | recentAlerts f => exact .some (base.leadsTo_alert row)
  | recentOperations f =>
    refine .some (base.leadsTo_resource_subtab _ (.behind ?_ ?_ ?_ _)) <;> decide
  | recentDrift f =>
    refine .some (base.leadsTo_resource_subtab _ (.behind ?_ ?_ ?_ _)) <;> decide

example : (LinkBase.ofUrl "http://host//").resourceUrl ⟨-5⟩ "Drift/History/a b" =
    "http://host/coregui/#Resource/-5/Drift/History/a b" := by
  rfl

end FleetConsole.Report
