import CapacityExpansion.Data.Sorting
import CapacityExpansion.Integrity.Graph
import CapacityExpansion.Report
import CapacityExpansion.Scenario.Basic

/-!
# Validating the selected fragments

Every selector of a scenario must name a registered fragment, and the selected
fragments must agree with each other as the cross-references say. A reference is
looked at only if both its ends are selected and registered, so a fragment which
does not exist is reported once and not again by everything that refers to it.

* `validate`: the report on a scenario, selectors first, then the references,
  those of a category after those of everything it depends on.
-/

namespace CapacityExpansion.Integrity

variable (store : Store)

/-- The violation of a selector which names no registered fragment. -/
def danglingSelector? (selector : Selector) : Option Violation :=
  match store.fragment? selector with
  | some _ => none
  | none => some {
      kind := .danglingReference
      severity := .error
      subject := .fragment selector
      message := "No " ++ selector.category.name ++
        s!" subscenario with ID {selector.id} exists" }

/-- The selector of a category, if it names a registered fragment. -/
def registeredSelector? (s : Scenario) (category : Category) : Option Selector :=
  (s.selector? category).filter fun selector => (store.fragment? selector).isSome

/-- What is wrong with a fragment whose operational characteristics name project fragments. -/
def subFragmentProblems (dependent : Selector) (category : ProjectCategory) : List String :=
  let rows := ((store.operationalChars.get? dependent.id).map OrderedMap.values).getD []
  rows.filterMap fun row => do
    let id ← row.subFragment category
    if (store.projectFragment? category row.project id).isSome then none
    else some (row.project ++ " refers to " ++ category.title ++
      s!" subscenario {id}, which does not exist for that project")

/-- The entities of a fragment which are not among those of another one. -/
def missingFrom (fragment other : Selector) : List EntityName :=
  (store.entities fragment).elements.filter fun e => !(store.entities other).contains e

/-- The zones assigned by a fragment, each with the entity it is assigned to. -/
def zonePairs (fragment : Selector) : List (EntityName × EntityName) :=
  let zones := ((store.zones.get? fragment).map OrderedMap.entries).getD []
  zones.flatMap fun (entity, zones) => zones.elements.map fun zone => (entity, zone)

/-- The entities of another fragment which a fragment does not cover. -/
def coverageProblems (dependent other : Selector) : List String :=
  (missingFrom store other dependent).map fun entity =>
    entity ++ " is in " ++ other.text ++ " but has no entry in this fragment"

/-- The entities of a fragment which are not within another one. -/
def entityProblems (dependent other : Selector) : List String :=
  (missingFrom store dependent other).map fun entity => entity ++ " is not in " ++ other.text

/-- The zones assigned by a fragment which are not within another one. -/
def zoneProblems (dependent other : Selector) : List String :=
  ((zonePairs store dependent).filter fun p => !(store.entities other).contains p.2).map fun p =>
    p.1 ++ " is assigned to zone " ++ p.2 ++ ", which is not in " ++ other.text

/-- What is wrong with a selected fragment and what it depends on. -/
def dependencyProblems (s : Scenario) (dependent : Selector) (dependency : Dependency) :
    List String :=
  let onSelected (category : Category) (problems : Selector → List String) : List String :=
    (registeredSelector? store s category).elim [] problems
  match dependency with
  | .subFragment category => subFragmentProblems store dependent category
  | .coversEntities category => onSelected category (coverageProblems store dependent)
  | .entitiesWithin category => onSelected category (entityProblems store dependent)
  | .zonesWithin category => onSelected category (zoneProblems store dependent)

/-- The violations of a reference. -/
def referenceViolations (s : Scenario) (x : CrossReference) : List Violation :=
  match registeredSelector? store s x.dependent with
  | none => []
  | some dependent => (dependencyProblems store s dependent x.dependency).map fun message =>
      { kind := .danglingReference, severity := .error, subject := .fragment dependent, message }

/-- The references in the order of a list of nodes, those of a node keeping their order. -/
def inCheckOrder (order : List Node) (references : List CrossReference) : List CrossReference :=
  sortOn (fun x => order.idxOf x.source) references

/-- The order in which categories are checked. -/
def checkOrder : List Node := (Graph.ofReferences crossReferences).finish

/-- The report on the selectors of a scenario and on the fragments they select. -/
def validate (s : Scenario) : Report where
  violations := s.selectors.filterMap (danglingSelector? store) ++
    (inCheckOrder checkOrder crossReferences).flatMap (referenceViolations store s)

/-- The declared references have no cycle, so there is an order to check them in. -/
theorem checkOrder?_crossReferences :
    (Graph.ofReferences crossReferences).checkOrder? = some checkOrder := by
  decide +kernel

/-- A report on selectors and references holds errors only. -/
theorem isError_of_mem_validate {s : Scenario} {v : Violation}
    (h : v ∈ (validate store s).violations) : v.severity = .error := by
  simp only [validate, List.mem_append, List.mem_filterMap, List.mem_flatMap] at h
  rcases h with ⟨selector, -, h⟩ | ⟨x, -, h⟩
  · unfold danglingSelector? at h
    split at h
    · cases h
    · cases h; rfl
  · unfold referenceViolations at h
    split at h
    · cases h
    · obtain ⟨_, -, rfl⟩ := List.mem_map.1 h; rfl

end CapacityExpansion.Integrity
