import FleetConsole.Id

/-! The types of managed resources and the sub-categories they are filed under. Sub-categories
name their parents, and nothing keeps the links from leading nowhere or in a circle, so the walk
up the links says how it ended. -/
namespace FleetConsole

inductive Category
  | platform | server | service
  deriving DecidableEq, Repr

namespace Category

def displayName : Category → String
  | .platform => "Platform"
  | .server => "Server"
  | .service => "Service"

/-- The name in stored data. -/
def name : Category → String
  | .platform => "PLATFORM"
  | .server => "SERVER"
  | .service => "SERVICE"

def ofName? : String → Option Category
  | "PLATFORM" => some .platform
  | "SERVER" => some .server
  | "SERVICE" => some .service
  | _ => none

@[simp] theorem ofName?_name (c : Category) : ofName? c.name = some c := by cases c <;> rfl

end Category

structure SubCategory where
  id : SubCategoryId
  name : String
  parentId : Option SubCategoryId
  deriving DecidableEq, Repr

structure ResourceType where
  id : TypeId
  name : String
  plugin : String
  category : Category
  description : Option String
  /-- Whether a parent has at most one resource of the type. -/
  singleton : Bool
  subCategoryId : Option SubCategoryId
  childTypeIds : List TypeId
  deriving DecidableEq, Repr

def ResourceType.hasChildTypes (t : ResourceType) : Bool := !t.childTypeIds.isEmpty

structure Catalog where
  types : List ResourceType
  subCategories : List SubCategory
  deriving DecidableEq, Repr

namespace Catalog

def empty : Catalog := ⟨[], []⟩

/-- Adds a type, replacing the one with its id. -/
def insertType (c : Catalog) (t : ResourceType) : Catalog :=
  { c with types := c.types.filter (·.id ≠ t.id) ++ [t] }

/-- Adds a sub-category, replacing the one with its id. -/
def insertSubCategory (c : Catalog) (s : SubCategory) : Catalog :=
  { c with subCategories := c.subCategories.filter (·.id ≠ s.id) ++ [s] }

/-- Of entries with one id the last counts. -/
def ofLists (types : List ResourceType) (subCategories : List SubCategory) : Catalog :=
  subCategories.foldl insertSubCategory (types.foldl insertType empty)

def type? (c : Catalog) (id : TypeId) : Option ResourceType := c.types.find? (·.id = id)

def subCategory? (c : Catalog) (id : SubCategoryId) : Option SubCategory :=
  c.subCategories.find? (·.id = id)

theorem id_of_type? {c : Catalog} {id : TypeId} {t : ResourceType} (h : c.type? id = some t) :
    t.id = id := by
  simpa using List.find?_some h

theorem id_of_subCategory? {c : Catalog} {id : SubCategoryId} {s : SubCategory}
    (h : c.subCategory? id = some s) : s.id = id := by
  simpa using List.find?_some h

theorem type?_insertType (c : Catalog) (t : ResourceType) (id : TypeId) :
    (c.insertType t).type? id = if t.id = id then some t else c.type? id := by
  unfold type? insertType
  rw [List.find?_append, List.find?_filter]
  by_cases h : t.id = id
  · subst h
    have hnone : c.types.find? (fun s => decide (decide (s.id ≠ t.id) = true ∧
        decide (s.id = t.id) = true)) = none := by
      simp [List.find?_eq_none]
    rw [hnone]
    simp
  · have hkeep : (fun s : ResourceType => decide (decide (s.id ≠ t.id) = true ∧
        decide (s.id = id) = true)) = fun s => decide (s.id = id) := by
      funext s
      by_cases hs : s.id = id
      · simp [hs, Ne.symm h]
      · simp [hs]
    rw [hkeep]
    simp [h]

def length (c : Catalog) : Nat := c.types.length

def isEmpty (c : Catalog) : Bool := c.types.isEmpty

/-- How a walk along parent links ended. -/
inductive ChainEnd
  | top
  /-- The link leads back to a sub-category already met. -/
  | repeated (id : SubCategoryId)
  /-- The link leads to an id that the catalog does not know. -/
  | unknown (id : SubCategoryId)
  deriving DecidableEq, Repr

/-- A sub-category and those above it, innermost first. -/
structure Chain where
  members : List SubCategory
  ending : ChainEnd
  deriving DecidableEq, Repr

/-- The sub-categories with other ids. -/
def without (subCategories : List SubCategory) (id : SubCategoryId) : List SubCategory :=
  subCategories.filter (·.id ≠ id)

theorem length_without_lt {subCategories : List SubCategory} {id : SubCategoryId}
    {s : SubCategory} (h : subCategories.find? (·.id = id) = some s) :
    (without subCategories id).length < subCategories.length := by
  have hid : s.id = id := by simpa using List.find?_some h
  apply Nat.lt_of_le_of_ne (List.length_filter_le _ _)
  intro heq
  have hall := List.length_filter_eq_length_iff.mp heq s (List.mem_of_find?_eq_some h)
  simp [hid] at hall

/-- Walks up from `id` through the sub-categories in `unmet`, each of which is met at most once. -/
def chainAmong (c : Catalog) (unmet : List SubCategory) (id : SubCategoryId) : Chain :=
  match _h : unmet.find? (·.id = id) with
  | none => ⟨[], if (c.subCategory? id).isSome then .repeated id else .unknown id⟩
  | some s =>
    match s.parentId with
    | none => ⟨[s], .top⟩
    | some parent =>
      let above := chainAmong c (without unmet id) parent
      ⟨s :: above.members, above.ending⟩
termination_by unmet.length
decreasing_by exact length_without_lt _h

/-- The sub-categories above and including `id`, as far as the links lead to new ones. -/
def chain (c : Catalog) (id : SubCategoryId) : Chain := c.chainAmong c.subCategories id

end Catalog

end FleetConsole
