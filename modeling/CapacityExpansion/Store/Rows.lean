import CapacityExpansion.Data.Checking
import CapacityExpansion.Decimal.Layout
import CapacityExpansion.Store.Basic
import CapacityExpansion.Text.Quoted

/-!
# Rows of the store

The contents of fragments come as rows, each of which says to which fragment it
belongs. They are added one after the other; a row which repeats an earlier one,
or has an empty name or a number out of range, is refused, and nothing is said
about those after it. Whether fragments fit together plays no part here.

* `fragmentsOfRows`, `membersOfRows`, `zonesOfRows`, `charsOfRows`,
  `projectFragmentsOfRows`, `curvesOfRows`: the parts of a store.
-/

namespace CapacityExpansion.Store

/-- Why a row is refused. -/
inductive RowProblem where
  /-- A fragment has no name. -/
  | unnamedFragment (id : Nat)
  /-- A fragment is registered twice. -/
  | repeatedFragment (id : Nat)
  /-- A member of a set has no name. -/
  | unnamedMember (selector : Selector)
  /-- A set has a member twice. -/
  | repeatedMember (selector : Selector) (entity : EntityName)
  /-- An entity or its zone has no name. -/
  | unnamedZone (selector : Selector)
  /-- An entity is assigned a zone twice. -/
  | repeatedZone (selector : Selector) (entity zone : EntityName)
  /-- A project has no operational type. -/
  | untypedProject (project : EntityName)
  /-- A key of a map has an entry already; the key is written as it is shown. -/
  | repeatedKey (key : String)
  /-- A share of the capacity is out of range. -/
  | loadFraction (project : EntityName) (value : Float)
  /-- A heat rate is out of range. -/
  | heatRate (project : EntityName) (value : Float)
  deriving DecidableEq

/-- The message of a problem. -/
def RowProblem.message : RowProblem → String
  | .unnamedFragment id => s!"Subscenario {id} has an empty name"
  | .repeatedFragment id => s!"Duplicate subscenario ID: {id}"
  | .unnamedMember selector => "Empty entity name in " ++ selector.text
  | .repeatedMember selector entity => s!"Duplicate member {entity} in " ++ selector.text
  | .unnamedZone selector => "Empty entity or zone name in " ++ selector.text
  | .repeatedZone selector entity zone =>
    s!"{entity} is assigned to zone {zone} more than once in " ++ selector.text
  | .untypedProject project => s!"Project {project} has no operational type"
  | .repeatedKey key => s!"Key {key} already exists in the map"
  | .loadFraction project value =>
    s!"Load point fraction for project {project} must be in the range (0, 1], got " ++
      Decimal.messages.write value
  | .heatRate project value =>
    s!"Average heat rate for project {project} must be positive, got " ++
      Decimal.messages.write value

/-- A name as it is shown in a key. -/
def shownName (name : EntityName) : String := "EntityID(" ++ Text.quote name ++ ")"

/-- A name and a fragment as they are shown in a key. -/
def shownPair (name : EntityName) (id : Nat) : String :=
  "(" ++ shownName name ++ s!", SubscenarioID({id}))"

/-! ## Registries and sets -/

/-- A registry with a further fragment. -/
def addFragment (registry : OrderedMap Nat Fragment) (fragment : Fragment) :
    Except RowProblem (OrderedMap Nat Fragment) := do
  require (fragment.name ≠ "") (.unnamedFragment fragment.id)
  require (registry.contains fragment.id = false) (.repeatedFragment fragment.id)
  return registry.insert fragment.id fragment

/-- The registry of some fragments. -/
def fragmentsOfRows (rows : List Fragment) : Except RowProblem (OrderedMap Nat Fragment) :=
  rows.foldlM addFragment ∅

/-- A member of a fragment. -/
structure MemberRow where
  /-- The fragment. -/
  selector : Selector
  /-- The member. -/
  entity : EntityName
  deriving DecidableEq, Repr

/-- The sets with a further member. -/
def addMember (members : OrderedMap Selector (OrderedSet EntityName)) (row : MemberRow) :
    Except RowProblem (OrderedMap Selector (OrderedSet EntityName)) := do
  require (row.entity ≠ "") (.unnamedMember row.selector)
  let set := (members.get? row.selector).getD ∅
  require (row.entity ∉ set.elements) (.repeatedMember row.selector row.entity)
  return members.insert row.selector (set.insert row.entity)

/-- The sets with some members. -/
def membersOfRows (rows : List MemberRow) :
    Except RowProblem (OrderedMap Selector (OrderedSet EntityName)) :=
  rows.foldlM addMember ∅

/-! ## Zones -/

/-- A zone of an entity in a fragment. -/
structure ZoneRow where
  /-- The fragment. -/
  selector : Selector
  /-- The entity. -/
  entity : EntityName
  /-- The zone. -/
  zone : EntityName
  deriving DecidableEq, Repr

/-- The assignments with a further one. -/
def addZone (zones : OrderedMap Selector ZoneMap) (row : ZoneRow) :
    Except RowProblem (OrderedMap Selector ZoneMap) := do
  require (row.entity ≠ "" ∧ row.zone ≠ "") (.unnamedZone row.selector)
  let map := (zones.get? row.selector).getD ∅
  let set := (map.get? row.entity).getD ∅
  require (row.zone ∉ set.elements) (.repeatedZone row.selector row.entity row.zone)
  return zones.insert row.selector (map.insert row.entity (set.insert row.zone))

/-- The assignments of some rows. -/
def zonesOfRows (rows : List ZoneRow) : Except RowProblem (OrderedMap Selector ZoneMap) :=
  rows.foldlM addZone ∅

/-! ## Projects -/

/-- The operational characteristics of a project in a fragment. -/
structure CharsRow where
  /-- The fragment. -/
  fragment : Nat
  /-- The characteristics. -/
  chars : OperationalChars
  deriving DecidableEq, Repr

/-- The operational characteristics with those of a further project. -/
def addChars (all : OrderedMap Nat (OrderedMap EntityName OperationalChars)) (row : CharsRow) :
    Except RowProblem (OrderedMap Nat (OrderedMap EntityName OperationalChars)) := do
  let project := row.chars.project
  require (row.chars.operationalType ≠ "") (.untypedProject project)
  let map := (all.get? row.fragment).getD ∅
  let (map, isNew) := map.insertNew project row.chars
  require (isNew = true) (.repeatedKey (shownName project))
  return all.insert row.fragment map

/-- The operational characteristics of some rows. -/
def charsOfRows (rows : List CharsRow) :
    Except RowProblem (OrderedMap Nat (OrderedMap EntityName OperationalChars)) :=
  rows.foldlM addChars ∅

/-- A fragment of a project. -/
structure ProjectFragmentRow where
  /-- The project. -/
  project : EntityName
  /-- The fragment. -/
  fragment : Fragment
  deriving DecidableEq, Repr

/-- A registry of project fragments with a further one. -/
def addProjectFragment (registry : OrderedMap (EntityName × Nat) Fragment)
    (row : ProjectFragmentRow) : Except RowProblem (OrderedMap (EntityName × Nat) Fragment) := do
  let (registry, isNew) := registry.insertNew (row.project, row.fragment.id) row.fragment
  require (isNew = true) (.repeatedKey (shownPair row.project row.fragment.id))
  return registry

/-- The registry of some project fragments. -/
def projectFragmentsOfRows (rows : List ProjectFragmentRow) :
    Except RowProblem (OrderedMap (EntityName × Nat) Fragment) :=
  rows.foldlM addProjectFragment ∅

/-- A point of the heat rate curve of a project. -/
structure CurveRow where
  /-- The project. -/
  project : EntityName
  /-- The curve. -/
  curve : Nat
  /-- The point. -/
  point : HeatRatePoint
  deriving DecidableEq

/-- The heat rate curves with a further point. Shares are positive and at most one; heat rates are
    positive and finite. -/
def addPoint (curves : OrderedMap (EntityName × Nat) (List HeatRatePoint)) (row : CurveRow) :
    Except RowProblem (OrderedMap (EntityName × Nat) (List HeatRatePoint)) := do
  let point := row.point
  require (0 < point.loadFraction ∧ point.loadFraction ≤ 1)
    (.loadFraction row.project point.loadFraction)
  require (point.heatRate.isFinite = true ∧ 0 < point.heatRate)
    (.heatRate row.project point.heatRate)
  return curves.upsert (row.project, row.curve) [] (· ++ [point])

/-- The heat rate curves of some points. -/
def curvesOfRows (rows : List CurveRow) :
    Except RowProblem (OrderedMap (EntityName × Nat) (List HeatRatePoint)) :=
  rows.foldlM addPoint ∅

/-! ## What is accepted -/

/-- A fragment is added to a registry if it has a name and its place is free. -/
theorem addFragment_ok_iff {registry result : OrderedMap Nat Fragment} {fragment : Fragment} :
    addFragment registry fragment = .ok result ↔
      fragment.name ≠ "" ∧ registry.contains fragment.id = false ∧
        result = registry.insert fragment.id fragment := by
  by_cases hname : fragment.name = ""
  · simp [addFragment, require, hname, bind, Except.bind]
  · by_cases hfree : registry.contains fragment.id = false
    · rw [addFragment, require_ok_iff.2 hname, require_ok_iff.2 hfree]
      exact ⟨fun h => ⟨hname, hfree, (Except.ok.inj h).symm⟩, fun h => congrArg Except.ok h.2.2.symm⟩
    · simp [addFragment, require, hname, hfree, bind, Except.bind]

end CapacityExpansion.Store
