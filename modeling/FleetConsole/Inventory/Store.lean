import FleetConsole.Inventory.Basic
import FleetConsole.Navigation.Controller

/-! An inventory in memory as the source of navigation. It never changes; what changes are the
lists of entities viewed last. -/
namespace FleetConsole.Inventory

/-- How many entities a list of the ones viewed last holds. -/
def recentLimit : Nat := 10

/-- Puts an id in front, where it stands once. -/
def remember {α : Type} [DecidableEq α] (id : α) (ids : List α) : List α :=
  (id :: ids.filter (· ≠ id)).take recentLimit

theorem head?_remember {α : Type} [DecidableEq α] (id : α) (ids : List α) :
    (remember id ids).head? = some id := rfl

theorem length_remember_le {α : Type} [DecidableEq α] (id : α) (ids : List α) :
    (remember id ids).length ≤ recentLimit := by
  simp only [remember, List.length_take]
  exact Nat.min_le_left _ _

theorem nodup_remember {α : Type} [DecidableEq α] (id : α) {ids : List α} (h : ids.Nodup) :
    (remember id ids).Nodup := by
  refine List.Pairwise.sublist (List.take_sublist _ _) (List.nodup_cons.mpr ⟨?_, ?_⟩)
  · simp
  · exact List.Pairwise.filter _ h

/-- Entities viewed last, newest first. -/
structure Recents where
  resources : List ResourceId
  groups : List GroupId
  deriving DecidableEq, Repr

def Recents.empty : Recents := ⟨[], []⟩

/-- Looks entities up in the inventory; no lookup fails. -/
def entitySource (inv : Inventory) : Navigation.EntitySource Recents where
  resource id recents := (.ok (inv.resource? id), recents)
  group id visibility recents := (.ok (inv.group? id visibility), recents)
  resourceType id recents := (.ok (inv.catalog.type? id), recents)
  addRecentResource id recents :=
    (.ok (), { recents with resources := remember id recents.resources })
  addRecentGroup id recents := (.ok (), { recents with groups := remember id recents.groups })

end FleetConsole.Inventory
