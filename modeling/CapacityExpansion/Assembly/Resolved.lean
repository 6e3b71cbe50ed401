import CapacityExpansion.Report
import CapacityExpansion.Scenario.Basic
import CapacityExpansion.Store.Basic
import CapacityExpansion.Temporal.Hierarchy

/-!
# Resolved scenarios

A resolved scenario holds all that the optimiser needs to know: the selected
fragments, the temporal hierarchy, the load zones, and the projects of the
portfolio, each with what the selected fragments say about it.
-/

namespace CapacityExpansion

/-- A selected fragment. -/
structure SelectedFragment where
  /-- Its category. -/
  category : Category
  /-- Its entry in the registry. -/
  fragment : Fragment
  deriving DecidableEq, Repr

/-- A project of the portfolio, with what applies to it. -/
structure ScopedProject where
  /-- The project. -/
  project : EntityName
  /-- Its load zones. -/
  loadZones : List EntityName
  /-- Its operational characteristics, if they are given. -/
  chars : Option OperationalChars
  /-- The points of its heat rate curve which are for periods of the hierarchy. -/
  heatRateCurve : List HeatRatePoint
  deriving DecidableEq

/-- The timepoints of a stage of a scenario. -/
structure StageGrid where
  /-- The scenario. -/
  scenario : String
  /-- The subproblem. -/
  subproblem : Nat
  /-- The stage. -/
  stage : Temporal.Stage
  deriving DecidableEq

/-- A scenario whose selectors have been checked and whose temporal hierarchy is resolved. -/
structure ResolvedScenario where
  /-- The name of the scenario. -/
  name : String
  /-- Its description. -/
  description : String
  /-- The features switched on, in feature order. -/
  features : List Feature
  /-- The selected fragments, in category order. -/
  fragments : List SelectedFragment
  /-- The temporal hierarchy. -/
  temporal : Temporal.Hierarchy
  /-- The load zones. -/
  loadZones : List EntityName
  /-- The projects of the portfolio. -/
  projects : List ScopedProject
  /-- The violations which did not prevent assembly. -/
  warnings : Report
  deriving DecidableEq

namespace ResolvedScenario

variable (r : ResolvedScenario)

/-- The timepoints of every stage, in order. -/
def stageGrids : List StageGrid :=
  r.temporal.stages.map fun (subproblem, stage) => { scenario := r.name, subproblem, stage }

/-- The selected fragment of a category. -/
def fragment? (category : Category) : Option Fragment :=
  (r.fragments.find? (·.category == category)).map SelectedFragment.fragment

end ResolvedScenario

/-- Why a scenario could not be assembled. -/
structure AssemblyError where
  /-- The scenario. -/
  scenario : String
  /-- Every violation found, warnings among them. -/
  report : Report
  deriving DecidableEq, Repr

/-- The message of a scenario which could not be assembled. -/
def AssemblyError.message (e : AssemblyError) : String :=
  s!"Scenario {e.scenario} could not be assembled:\n" ++ e.report.text

end CapacityExpansion
