import CapacityExpansion.Data.OrderedMap
import CapacityExpansion.Data.OrderedSet
import CapacityExpansion.Scenario.Category
import CapacityExpansion.Temporal.Tables

/-!
# The store

The store holds every fragment a scenario could select. Each category has a
registry of its fragments; what a fragment consists of is kept beside the
registries, in a form which depends on its category: a set of entities, an
assignment of zones to entities, the operational characteristics of projects,
or temporal tables. Fragments know nothing of each other: that selected ones fit
together is checked elsewhere (`CapacityExpansion.Integrity.Validation`).

Operational characteristics of a project name fragments of the project itself,
its heat rate curve for example. These *project fragments* have registries of
their own, by project.

* `Store.entities`: the entities a fragment is about, whatever its form;
* `Store.fragment?_insertFragment_of_ne`: registering a fragment changes the
  lookup of that fragment and of no other.
-/

namespace CapacityExpansion

/-- The name of a project, a zone, a transmission line or a balancing area. -/
abbrev EntityName := String

/-- An entry of a registry. -/
structure Fragment where
  /-- The fragment. -/
  id : Nat
  /-- Its name. -/
  name : String
  /-- A description. -/
  description : String
  deriving DecidableEq, Repr

/-- The categories of project fragments. -/
inductive ProjectCategory where
  /-- Heat rate curves. -/
  | heatRateCurves
  /-- Startup characteristics. -/
  | startupChars
  /-- Profiles of variable generators. -/
  | variableGeneratorProfiles
  /-- Operational characteristics of hydro projects. -/
  | hydroOperationalChars
  deriving DecidableEq, Repr

namespace ProjectCategory

/-- All categories of project fragments, in order. -/
def all : List ProjectCategory :=
  [.heatRateCurves, .startupChars, .variableGeneratorProfiles, .hydroOperationalChars]

/-- The name of a category of project fragments in files. -/
def name : ProjectCategory → String
  | .heatRateCurves => "heat_rate_curves"
  | .startupChars => "startup_chars"
  | .variableGeneratorProfiles => "variable_generator_profiles"
  | .hydroOperationalChars => "hydro_operational_chars"

/-- The name of a category of project fragments in messages. -/
def title (c : ProjectCategory) : String := "project_" ++ c.name

end ProjectCategory

/-- The operational characteristics of a project. -/
structure OperationalChars where
  /-- The project. -/
  project : EntityName
  /-- Its operational type. -/
  operationalType : String
  /-- Its heat rate curve. -/
  heatRateCurve : Option Nat := none
  /-- Its startup characteristics. -/
  startupChars : Option Nat := none
  /-- Its variable generator profile. -/
  variableProfile : Option Nat := none
  /-- Its hydro characteristics. -/
  hydroChars : Option Nat := none
  deriving DecidableEq, Repr

/-- The project fragment of a category which operational characteristics name. -/
def OperationalChars.subFragment (chars : OperationalChars) : ProjectCategory → Option Nat
  | .heatRateCurves => chars.heatRateCurve
  | .startupChars => chars.startupChars
  | .variableGeneratorProfiles => chars.variableProfile
  | .hydroOperationalChars => chars.hydroChars

/-- A point of a heat rate curve. -/
structure HeatRatePoint where
  /-- The period the point is for. -/
  period : Nat
  /-- The share of the capacity. -/
  loadFraction : Float
  /-- The average heat rate. -/
  heatRate : Float
  deriving DecidableEq

/-- An assignment of zones to entities. -/
abbrev ZoneMap := OrderedMap EntityName (OrderedSet EntityName)

/-- All fragments there are. -/
structure Store where
  /-- The registries of the categories. -/
  fragments : OrderedMap Category (OrderedMap Nat Fragment) := ∅
  /-- The fragments which are sets of entities. -/
  members : OrderedMap Selector (OrderedSet EntityName) := ∅
  /-- The fragments which assign zones to entities. -/
  zones : OrderedMap Selector ZoneMap := ∅
  /-- The fragments of operational characteristics, by project. -/
  operationalChars : OrderedMap Nat (OrderedMap EntityName OperationalChars) := ∅
  /-- The registries of project fragments. -/
  projectFragments : OrderedMap ProjectCategory (OrderedMap (EntityName × Nat) Fragment) := ∅
  /-- The points of the heat rate curves of projects. -/
  heatRateCurves : OrderedMap (EntityName × Nat) (List HeatRatePoint) := ∅
  /-- The temporal fragments. -/
  temporal : OrderedMap Nat Temporal.Tables := ∅

namespace Store

/-- The store without fragments. -/
def empty : Store := {}

instance : Inhabited Store := ⟨.empty⟩

variable (s : Store)

/-- The registry of a category. -/
def registry (category : Category) : OrderedMap Nat Fragment := (s.fragments.get? category).getD ∅

/-- A registered fragment. -/
def fragment? (selector : Selector) : Option Fragment :=
  (s.registry selector.category).get? selector.id

/-- The fragments registered for a category, in order of registration. -/
def fragmentsOf (category : Category) : List Fragment := (s.registry category).values

/-- The store with a fragment registered, in the place of one registered before. -/
def insertFragment (category : Category) (fragment : Fragment) : Store :=
  { s with fragments := s.fragments.upsert category ∅ (·.insert fragment.id fragment) }

/-- A registered project fragment. -/
def projectFragment? (category : ProjectCategory) (project : EntityName) (id : Nat) :
    Option Fragment :=
  (s.projectFragments.get? category).bind (·.get? (project, id))

/-- The heat rate curve of a project: its points, or none if there is no such curve. -/
def heatRateCurve (project : EntityName) (id : Nat) : List HeatRatePoint :=
  (s.heatRateCurves.get? (project, id)).getD []

/-- The entities a fragment is about: the members of a set, the entities which have zones, and
    the projects which have operational characteristics. -/
def entities (selector : Selector) : OrderedSet EntityName :=
  let members := ((s.members.get? selector).map OrderedSet.elements).getD []
  let zoned := ((s.zones.get? selector).map OrderedMap.keys).getD []
  let described :=
    if selector.category = .projectOperationalChars then
      ((s.operationalChars.get? selector.id).map OrderedMap.keys).getD []
    else []
  .ofList (members ++ zoned ++ described)

/-- Registering a fragment puts it into the registry of its category. -/
theorem registry_insertFragment (category : Category) (fragment : Fragment) :
    (s.insertFragment category fragment).registry category =
      (s.registry category).insert fragment.id fragment := by
  simp [registry, insertFragment, OrderedMap.upsert]

/-- Registering a fragment leaves the registries of other categories alone. -/
theorem registry_insertFragment_of_ne {category other : Category} (h : other ≠ category)
    (fragment : Fragment) :
    (s.insertFragment category fragment).registry other = s.registry other := by
  simp [registry, insertFragment, OrderedMap.upsert, OrderedMap.get?_insert_of_ne _ h]

/-- Registering a fragment changes no lookup of another one. -/
theorem fragment?_insertFragment_of_ne {category : Category} {fragment : Fragment}
    {selector : Selector} (h : selector ≠ ⟨category, fragment.id⟩) :
    (s.insertFragment category fragment).fragment? selector = s.fragment? selector := by
  obtain ⟨other, id⟩ := selector
  by_cases hcategory : other = category
  · have hid : id ≠ fragment.id := fun e => h (hcategory ▸ e ▸ rfl)
    rw [fragment?, fragment?, hcategory, registry_insertFragment, OrderedMap.get?_insert_of_ne _ hid]
  · rw [fragment?, fragment?, registry_insertFragment_of_ne _ hcategory]

end Store

end CapacityExpansion
