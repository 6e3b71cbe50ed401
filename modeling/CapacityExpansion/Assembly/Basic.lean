import CapacityExpansion.Assembly.Resolved
import CapacityExpansion.Integrity.Validation
import CapacityExpansion.Requirements.Check
import CapacityExpansion.Temporal.Resolution

/-!
# Assembling scenarios

A scenario is assembled as a whole or not at all. Its selectors are checked
first, against the store and against the requirements, and everything wrong with
them is reported together; only if there is no error is the temporal hierarchy
resolved. What is then left to do cannot fail.

* `assemble`: the resolved scenario, or the violations which prevent it;
* `assemble_report`: errors among the selectors are reported, whatever the
  temporal tables are like.
-/

namespace CapacityExpansion

namespace Assembly

variable (store : Store) (s : Scenario)

/-- The violation of a scenario without temporal fragment. -/
def missingTemporal : Violation where
  kind := .featureSelectorIncoherence
  severity := .error
  subject := .category .temporal
  message := "A temporal subscenario must be selected to resolve the temporal hierarchy"

/-- Several stages in a subproblem are only for scenarios with the feature for them. -/
def stageViolation? (h : Temporal.Hierarchy) : Option Violation :=
  if h.maxStageCount ≤ 1 || s.features .multiStage then none
  else some {
    kind := .featureSelectorIncoherence
    severity := .error
    subject := .fragment ⟨.temporal, h.fragment⟩
    message := s!"Temporal hierarchy has {h.maxStageCount} stages in a subproblem, but feature " ++
      Feature.multiStage.name ++ " is disabled" }

/-- The selected fragments. -/
def selectedFragments : List SelectedFragment :=
  s.selectors.filterMap fun selector =>
    (store.fragment? selector).map fun fragment => { category := selector.category, fragment }

/-- The entities of the selected fragment of a category. -/
def selectedEntities (category : Category) : List EntityName :=
  ((s.selector? category).map fun selector => (store.entities selector).elements).getD []

/-- The load zones which the selected fragment assigns to a project. -/
def loadZonesOf (project : EntityName) : List EntityName :=
  let zones := do
    let selector ← s.selector? .projectLoadZones
    let map ← store.zones.get? selector
    map.get? project
  (zones.map OrderedSet.elements).getD []

/-- The operational characteristics of a project in the selected fragment. -/
def charsOf (project : EntityName) : Option OperationalChars := do
  let id ← s.selected .projectOperationalChars
  let map ← store.operationalChars.get? id
  map.get? project

/-- The heat rate curve which operational characteristics name, as far as it is for periods of the
    hierarchy. -/
def curveOf (h : Temporal.Hierarchy) (project : EntityName) (chars : Option OperationalChars) :
    List HeatRatePoint :=
  let points := ((chars.bind OperationalChars.heatRateCurve).map (store.heatRateCurve project)).getD []
  points.filter fun point => h.periods.any (·.id == point.period)

/-- A project of the portfolio, with what the selected fragments say about it. -/
def describe (h : Temporal.Hierarchy) (project : EntityName) : ScopedProject :=
  let chars := charsOf store s project
  { project
    loadZones := loadZonesOf store s project
    chars
    heatRateCurve := curveOf store h project chars }

/-- A scenario with its temporal hierarchy. -/
def resolved (h : Temporal.Hierarchy) (warnings : Report) : ResolvedScenario where
  name := s.name
  description := s.description
  features := s.enabled
  fragments := selectedFragments store s
  temporal := h
  loadZones := selectedEntities store s .loadZones
  projects := (selectedEntities store s .projectPortfolio).map (describe store s h)
  warnings := warnings

/-- The report on the selectors of a scenario. -/
def report (r : Requirements) : Report := Integrity.validate store s ++ r.check s

end Assembly

/-- What the assembly of a scenario gives. -/
structure Assembly where
  /-- The resolved scenario, or what prevents it. -/
  outcome : Except AssemblyError ResolvedScenario
  /-- The demotions found when the temporal hierarchy was resolved. -/
  demotions : List Temporal.Demotion := []

/-- Assembles a scenario. -/
def assemble (store : Store) (s : Scenario) (r : Requirements) : Assembly :=
  let report := Assembly.report store s r
  let failed (report : Report) : Except AssemblyError ResolvedScenario :=
    .error { scenario := s.name, report }
  if report.hasErrors then { outcome := failed report }
  else match s.selected .temporal with
    | none => { outcome := failed (report.push Assembly.missingTemporal) }
    | some id =>
      let resolution := Temporal.resolve id ((store.temporal.get? id).getD .empty)
      let outcome := match resolution.outcome with
        | .error fault => failed (report.push fault.violation)
        | .ok h => match Assembly.stageViolation? s h with
          | some violation => failed (report.push violation)
          | none => .ok (Assembly.resolved store s h report)
      { outcome, demotions := resolution.demotions }

/-- If the selectors have errors, the report on them is the answer. -/
theorem assemble_report {store : Store} {s : Scenario} {r : Requirements}
    (h : (Assembly.report store s r).hasErrors = true) :
    (assemble store s r).outcome =
      .error { scenario := s.name, report := Assembly.report store s r } := by
  simp only [assemble, h, if_true]

end CapacityExpansion
