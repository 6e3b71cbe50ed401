import CapacityExpansion.Csv.Columns
import CapacityExpansion.Store.Rows

/-!
# Columns of the store's files

The columns of the files which hold the store, and the row each of their records
stands for.
-/

namespace CapacityExpansion.Store

open Csv (Schema Row Column)

/-- A column of categories. -/
def category (name : String) : Column where
  name := name
  Value := Category
  read cell :=
    match Category.ofName? cell with
    | some category => .ok category
    | none => .error <| .other <| "unknown variant \x60" ++ cell ++ "\x60, expected one of " ++
        ", ".intercalate (Category.all.map fun c => "\x60" ++ c.name ++ "\x60")

/-- The file of a registry. -/
def fragmentSchema : Schema where
  recordName := "FragmentRaw"
  columns := [.identifier "subscenario_id", .text "name", (Column.text "description").orElse ""]

/-- A record of a registry. -/
def fragmentOfRow : Row fragmentSchema.columns → Fragment
  | (id, name, description, ()) => { id, name, description }

/-- The file of the members of fragments. -/
def memberSchema : Schema where
  recordName := "EntityMemberRaw"
  columns := [category "category", .identifier "subscenario_id", .text "entity"]

/-- A record of members. -/
def memberOfRow : Row memberSchema.columns → MemberRow
  | (category, id, entity, ()) => { selector := ⟨category, id⟩, entity }

/-- The file of the zones of entities. -/
def zoneSchema : Schema where
  recordName := "EntityZoneRaw"
  columns := [category "category", .identifier "subscenario_id", .text "entity", .text "zone"]

/-- A record of zones. -/
def zoneOfRow : Row zoneSchema.columns → ZoneRow
  | (category, id, entity, zone, ()) => { selector := ⟨category, id⟩, entity, zone }

/-- The file of operational characteristics. -/
def charsSchema : Schema where
  recordName := "OperationalCharsRaw"
  columns := [.identifier "subscenario_id", .text "project", .text "operational_type",
    (Column.identifier "heat_rate_curves_id").optional,
    (Column.identifier "startup_chars_id").optional,
    (Column.identifier "variable_generator_profile_id").optional,
    (Column.identifier "hydro_operational_chars_id").optional]

/-- A record of operational characteristics. -/
def charsOfRow : Row charsSchema.columns → CharsRow
  | (fragment, project, operationalType, heatRateCurve, startupChars, variableProfile, hydroChars,
      ()) =>
    let chars : OperationalChars :=
      { project, operationalType, heatRateCurve, startupChars, variableProfile, hydroChars }
    { fragment, chars }

/-- The file of a registry of project fragments. -/
def projectFragmentSchema : Schema where
  recordName := "ProjectFragmentRaw"
  columns := [.text "project", .identifier "subscenario_id", .text "name",
    (Column.text "description").orElse ""]

/-- A record of a registry of project fragments. -/
def projectFragmentOfRow : Row projectFragmentSchema.columns → ProjectFragmentRow
  | (project, id, name, description, ()) => { project, fragment := { id, name, description } }

/-- The file of heat rate curves. -/
def curveSchema : Schema where
  recordName := "HeatRateCurveRaw"
  columns := [.text "project", .identifier "subscenario_id", .identifier "period",
    .real "load_point_fraction", .real "average_heat_rate"]

/-- A record of a heat rate curve. -/
def curveOfRow : Row curveSchema.columns → CurveRow
  | (project, curve, period, loadFraction, heatRate, ()) =>
    { project, curve, point := { period, loadFraction, heatRate } }

end CapacityExpansion.Store
