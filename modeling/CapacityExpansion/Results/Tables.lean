import CapacityExpansion.Assembly.Resolved
import CapacityExpansion.Csv.Writing
import CapacityExpansion.Decimal.Layout
import CapacityExpansion.Scenario.View

/-!
# Tables of results

A resolved scenario is written as tables for the optimiser and its users: the
timepoints with their neighbours, the horizons, the selected fragments, the
projects and their heat rate curves, the scenario view and the warnings. A table
without rows is an empty file, without even the names of its columns.

* `timepointRows`, `horizonRows`, `projectRows`, `curveRows`: the rows of the
  tables;
* `tables`: all tables, in the order they are written.
-/

namespace CapacityExpansion.Results

/-- A table: the columns and what a row has in each of them. -/
structure TableFormat (ρ : Type) where
  /-- The name of the file. -/
  fileName : String
  /-- The columns. -/
  columns : List (String × (ρ → String))

/-- The text of a table. -/
def TableFormat.text {ρ : Type} (format : TableFormat ρ) (rows : List ρ) : String :=
  if rows.isEmpty then ""
  else Csv.write <| format.columns.map Prod.fst ::
    rows.map fun row => format.columns.map fun column => column.2 row

/-- A cell with a number. -/
def number (n : Nat) : String := toString n

/-- A cell with a real number. -/
def real (x : Float) : String := Decimal.cells.write x

/-- A cell which is empty if there is no value. -/
def orBlank {α : Type} (cell : α → String) (value : Option α) : String := value.elim "" cell

/-! ## Timepoints -/

/-- A timepoint on the timeline of a balancing type. -/
structure TimepointRow where
  /-- The subproblem. -/
  subproblem : Nat
  /-- The stage. -/
  stage : Nat
  /-- The timepoint. -/
  timepoint : Temporal.Timepoint
  /-- The balancing type. -/
  balancingType : Temporal.BalancingType
  /-- The place of the timepoint on the timeline. -/
  link : Temporal.Link
  deriving DecidableEq

/-- The rows of the timepoints: for every stage and balancing type, its timepoints in order. -/
def timepointRows (r : ResolvedScenario) : List TimepointRow :=
  r.stageGrids.flatMap fun grid =>
    grid.stage.timelines.flatMap fun timeline =>
      timeline.links.filterMap fun link =>
        (grid.stage.timepoints.find? (·.id == link.timepoint)).map fun timepoint =>
          { subproblem := grid.subproblem
            stage := grid.stage.id
            timepoint
            balancingType := timeline.balancingType
            link }

/-- The table of timepoints. -/
def timepointFormat : TableFormat TimepointRow where
  fileName := "timepoints.csv"
  columns := [
    ("subproblem_id", fun row => number row.subproblem),
    ("stage_id", fun row => number row.stage),
    ("timepoint", fun row => number row.timepoint.id),
    ("period", fun row => number row.timepoint.period),
    ("number_of_hours_in_timepoint", fun row => real row.timepoint.hours),
    ("timepoint_weight", fun row => real row.timepoint.weight),
    ("linked_timepoint", fun row => orBlank (fun i => toString i.toInt) row.timepoint.linkedIndex),
    ("month", fun row => orBlank number row.timepoint.month),
    ("hour_of_day", fun row => orBlank real row.timepoint.hourOfDay),
    ("balancing_type", fun row => row.balancingType),
    ("horizon", fun row => row.link.horizon),
    ("previous_timepoint", fun row => orBlank Temporal.Adjacent.text row.link.previous),
    ("next_timepoint", fun row => orBlank Temporal.Adjacent.text row.link.next)]

/-! ## Horizons -/

/-- A horizon of a stage. -/
structure HorizonRow where
  /-- The subproblem. -/
  subproblem : Nat
  /-- The stage. -/
  stage : Nat
  /-- The balancing type. -/
  balancingType : Temporal.BalancingType
  /-- The horizon. -/
  horizon : Temporal.Horizon
  deriving DecidableEq

/-- The rows of the horizons: for every stage and balancing type, its horizons in order. -/
def horizonRows (r : ResolvedScenario) : List HorizonRow :=
  r.stageGrids.flatMap fun grid =>
    grid.stage.timelines.flatMap fun timeline =>
      timeline.horizons.map fun horizon =>
        { subproblem := grid.subproblem
          stage := grid.stage.id
          balancingType := timeline.balancingType
          horizon }

/-- The table of horizons. -/
def horizonFormat : TableFormat HorizonRow where
  fileName := "horizons.csv"
  columns := [
    ("subproblem_id", fun row => number row.subproblem),
    ("stage_id", fun row => number row.stage),
    ("balancing_type", fun row => row.balancingType),
    ("horizon", fun row => row.horizon.name),
    ("declared_boundary", fun row => row.horizon.declared.name),
    ("boundary", fun row => row.horizon.boundary.name),
    ("tmp_start", fun row => orBlank number row.horizon.timepoints.head?),
    ("tmp_end", fun row => orBlank number row.horizon.timepoints.getLast?),
    ("number_of_timepoints", fun row => number row.horizon.timepoints.length),
    ("duration_hours", fun row => real row.horizon.duration)]

/-! ## Fragments and projects -/

/-- The table of selected fragments. -/
def fragmentFormat : TableFormat SelectedFragment where
  fileName := "fragments.csv"
  columns := [
    ("category", fun row => row.category.name),
    ("subscenario_id", fun row => number row.fragment.id),
    ("name", fun row => row.fragment.name),
    ("description", fun row => row.fragment.description)]

/-- The table of projects. -/
def projectFormat : TableFormat ScopedProject where
  fileName := "projects.csv"
  columns := [
    ("project", fun row => row.project),
    ("load_zones", fun row => ";".intercalate row.loadZones),
    ("operational_type", fun row => orBlank OperationalChars.operationalType row.chars)]

/-- The rows of the heat rate curves: the points of each project, in order. -/
def curveRows (r : ResolvedScenario) : List (EntityName × HeatRatePoint) :=
  r.projects.flatMap fun p => p.heatRateCurve.map fun point => (p.project, point)

/-- The table of heat rate curves. -/
def curveFormat : TableFormat (EntityName × HeatRatePoint) where
  fileName := "heat_rate_curves.csv"
  columns := [
    ("project", fun row => row.1),
    ("period", fun row => number row.2.period),
    ("load_point_fraction", fun row => real row.2.loadFraction),
    ("average_heat_rate", fun row => real row.2.heatRate)]

/-! ## The view and the warnings -/

/-- The table of the scenario view. -/
def viewFormat : TableFormat ViewRow where
  fileName := "scenario_view.csv"
  columns := [
    ("category", fun row => row.category.name),
    ("selector_column", fun row => row.category.selectorColumn),
    ("subscenario_id", fun row => orBlank number row.selected),
    ("name", fun row => orBlank id row.name)]

/-- The table of warnings. -/
def warningFormat : TableFormat Violation where
  fileName := "warnings.csv"
  columns := [
    ("kind", fun row => row.kind.name),
    ("severity", fun row => row.severity.name),
    ("category", fun row => orBlank Category.name row.subject.category?),
    ("subscenario_id", fun row => orBlank number row.subject.fragment?),
    ("message", fun row => row.message)]

/-! ## All tables -/

/-- A file and its text. -/
structure OutputFile where
  /-- The name of the file. -/
  name : String
  /-- Its text. -/
  text : String
  deriving DecidableEq, Repr

/-- The file of a table. -/
def TableFormat.file {ρ : Type} (format : TableFormat ρ) (rows : List ρ) : OutputFile where
  name := format.fileName
  text := format.text rows

/-- The files of all tables, in the order they are written. -/
def tables (r : ResolvedScenario) (view : ScenarioView) : List OutputFile :=
  [timepointFormat.file (timepointRows r), horizonFormat.file (horizonRows r),
    viewFormat.file view.rows, fragmentFormat.file r.fragments, projectFormat.file r.projects,
    curveFormat.file (curveRows r), warningFormat.file r.warnings.violations]

end CapacityExpansion.Results
