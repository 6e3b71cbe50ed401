import CapacityExpansion.Csv.Columns
import CapacityExpansion.Data.OrderedMap
import CapacityExpansion.Temporal.Tables
import CapacityExpansion.Text.CaseFolding
import CapacityExpansion.Text.Quoted

/-!
# Columns of the temporal files

The temporal tables of all fragments are kept together, in one file for each of
the seven tables. The first column says to which fragment a record belongs; the
others are a row of the table.

* `TableFile.all`: the seven files, in the order they are read;
* `TableFile.add`: the tables with the records of a file.
-/

namespace CapacityExpansion.Temporal

open Csv (Schema Row Column)

/-- A column of boundaries, whatever their case. -/
def boundary (name : String) : Column where
  name := name
  Value := Boundary
  read cell :=
    match Boundary.all.find? fun b => Text.foldsTo cell b.name with
    | some boundary => .ok boundary
    | none => .error <| .other <|
        "invalid value: string " ++ Text.quote cell ++ ", expected a valid BoundaryType string value"

/-- The column which says to which fragment a record belongs. -/
def fragmentColumn : Column := .identifier "temporal_scenario_id"

/-- The column of subproblems. -/
def subproblemColumn : Column := .identifier "subproblem_id"

/-- The column of stages. -/
def stageColumn : Column := .identifier "stage_id"

/-- The column of balancing types. -/
def balancingTypeColumn : Column := .text "balancing_type_horizon"

/-- A file of a temporal table. -/
structure TableFile where
  /-- The name of the file. -/
  fileName : String
  /-- Its columns after the fragment. -/
  schema : Schema
  /-- Tables with a further row. -/
  add : Row schema.columns → Tables → Tables

namespace TableFile

/-- The columns of a file, the fragment among them. -/
def fullSchema (f : TableFile) : Schema where
  recordName := f.schema.recordName
  columns := fragmentColumn :: f.schema.columns

/-- The file of periods. -/
def periods : TableFile where
  fileName := "temporal_periods.csv"
  schema := {
    recordName := "PeriodRaw"
    columns := [.identifier "period", .real "discount_factor", .real "number_years_represented"] }
  add
    | (id, discountFactor, yearsRepresented, ()), t =>
      { t with periods := t.periods ++ [{ id, discountFactor, yearsRepresented }] }

/-- The file of subproblems. -/
def subproblems : TableFile where
  fileName := "temporal_subproblems.csv"
  schema := { recordName := "SubproblemRaw", columns := [subproblemColumn] }
  add
    | (id, ()), t => { t with subproblems := t.subproblems.concat id }

/-- The file of stages. -/
def stages : TableFile where
  fileName := "temporal_stages.csv"
  schema := {
    recordName := "StageRaw"
    columns := [subproblemColumn, stageColumn, (Column.text "stage_name").orElse ""] }
  add
    | (subproblem, stage, name, ()), t =>
      { t with stages := t.stages ++ [{ subproblem, stage, name }] }

/-- The file of timepoints. -/
def timepoints : TableFile where
  fileName := "temporal_timepoints.csv"
  schema := {
    recordName := "TimepointRaw"
    columns := [subproblemColumn, stageColumn, .identifier "timepoint", .identifier "period",
      .real "number_of_hours_in_timepoint", .real "timepoint_weight",
      (Column.linkedIndex "linked_timepoint").optional.orElse none,
      (Column.identifier "month").optional.orElse none,
      (Column.real "hour_of_day").optional.orElse none] }
  add
    | (subproblem, stage, id, period, hours, weight, linkedIndex, month, hourOfDay, ()), t =>
      let timepoint : Timepoint := { id, period, hours, weight, linkedIndex, month, hourOfDay }
      { t with timepoints := t.timepoints ++ [{ subproblem, stage, timepoint }] }

/-- The file of horizons. -/
def horizons : TableFile where
  fileName := "temporal_horizons.csv"
  schema := {
    recordName := "HorizonRaw"
    columns := [subproblemColumn, balancingTypeColumn, .text "horizon", boundary "boundary"] }
  add
    | (subproblem, balancingType, horizon, boundary, ()), t =>
      { t with horizons := t.horizons ++ [{ subproblem, balancingType, horizon, boundary }] }

/-- The file of the timepoints of horizons. -/
def members : TableFile where
  fileName := "temporal_horizon_timepoints.csv"
  schema := {
    recordName := "HorizonTimepointRaw"
    columns := [subproblemColumn, stageColumn, .identifier "timepoint", balancingTypeColumn,
      .text "horizon"] }
  add
    | (subproblem, stage, timepoint, balancingType, horizon, ()), t =>
      { t with members := t.members ++ [{ subproblem, stage, timepoint, balancingType, horizon }] }

/-- The file of the spans of horizons. -/
def spans : TableFile where
  fileName := "temporal_horizon_timepoints_start_end.csv"
  schema := {
    recordName := "HorizonStartEndRaw"
    columns := [subproblemColumn, stageColumn, balancingTypeColumn, .text "horizon",
      .identifier "tmp_start", .identifier "tmp_end"] }
  add
    | (subproblem, stage, balancingType, horizon, first, last, ()), t =>
      { t with spans := t.spans ++ [{ subproblem, stage, balancingType, horizon, first, last }] }

/-- The seven files, in the order they are read. -/
def all : List TableFile :=
  [periods, subproblems, stages, timepoints, horizons, members, spans]

/-- The tables of the fragments with the records of a file. -/
def addRows (f : TableFile) (tables : OrderedMap Nat Tables) (rows : List (Row f.fullSchema.columns)) :
    OrderedMap Nat Tables :=
  rows.foldl (fun tables row => tables.upsert row.1 .empty (f.add row.2)) tables

end TableFile

end CapacityExpansion.Temporal
