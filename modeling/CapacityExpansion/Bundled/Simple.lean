import CapacityExpansion.Bundled.Basic

/-!
# The simple store

A small store to try the program with: three generators in two load zones, with
one temporal fragment of a single day and one of two linked subproblems.
-/

namespace CapacityExpansion.Bundled.Simple

/-- What the store is about. -/
def readme : File where
  name := "README.txt"
  lines := [
    "A small store with three generators in two load zones.",
    "",
    "Scenarios:",
    "  base             One day of eight 3-hour timepoints with a circular daily horizon.",
    "  rps              As base, with a renewable portfolio standard covering the wind and solar",
    "                   projects.",
    "  two_subproblems  Two consecutive subproblems of four 6-hour timepoints. The last two",
    "                   timepoints of the first subproblem are linked into the start of the second."]

/-- Its scenarios. -/
def scenarios : File where
  name := "scenarios.toml"
  lines := [
    "[base]",
    "description = \"One representative day\"",
    "",
    "[base.subscenarios]",
    "temporal = 1",
    "load_zones = 1",
    "load = 1",
    "project_portfolio = 1",
    "project_operational_chars = 1",
    "project_load_zones = 1",
    "",
    "[rps]",
    "description = \"One representative day with an RPS target\"",
    "",
    "[rps.features]",
    "of_rps = true",
    "",
    "[rps.subscenarios]",
    "temporal = 1",
    "load_zones = 1",
    "load = 1",
    "project_portfolio = 1",
    "project_operational_chars = 1",
    "project_load_zones = 1",
    "rps_zones = 1",
    "project_rps_zones = 1",
    "rps_target = 1",
    "",
    "[two_subproblems]",
    "description = \"Two linked subproblems\"",
    "",
    "[two_subproblems.subscenarios]",
    "temporal = 2",
    "load_zones = 1",
    "load = 1",
    "project_portfolio = 1",
    "project_operational_chars = 1",
    "project_load_zones = 1"]

/-- The load zones, the projects and the zones of the renewable portfolio standard. -/
def entityMembers : File where
  name := "entity_members.csv"
  lines := [
    "category,subscenario_id,entity",
    "load_zones,1,north",
    "load_zones,1,south",
    "project_portfolio,1,gas_ct",
    "project_portfolio,1,wind",
    "project_portfolio,1,solar",
    "rps_zones,1,rps_zone"]

/-- The zones of the projects. -/
def entityZones : File where
  name := "entity_zones.csv"
  lines := [
    "category,subscenario_id,entity,zone",
    "project_load_zones,1,gas_ct,north",
    "project_load_zones,1,wind,south",
    "project_load_zones,1,solar,south",
    "project_rps_zones,1,wind,rps_zone",
    "project_rps_zones,1,solar,rps_zone"]

/-- The heat rate curves. -/
def projectHeatRateCurves : File where
  name := "project_heat_rate_curves.csv"
  lines := [
    "project,subscenario_id,period,load_point_fraction,average_heat_rate",
    "gas_ct,1,2030,0.5,11.2",
    "gas_ct,1,2030,1.0,9.8"]

/-- The operational characteristics of the projects. -/
def projectOperationalChars : File where
  name := "project_operational_chars.csv"
  lines := [
    "subscenario_id,project,operational_type,heat_rate_curves_id,startup_chars_id,variable_generator_profile_id,hydro_operational_chars_id",
    "1,gas_ct,gen_commit_cap,1,,,",
    "1,wind,gen_var,,,1,",
    "1,solar,gen_var,,,1,"]

/-- The registry of load. -/
def subscenariosLoad : File where
  name := "subscenarios_load.csv"
  lines := [
    "subscenario_id,name,description",
    "1,flat,Flat load in both zones"]

/-- The registry of load zones. -/
def subscenariosLoadZones : File where
  name := "subscenarios_load_zones.csv"
  lines := [
    "subscenario_id,name,description",
    "1,north_south,Two load zones"]

/-- The registry of project heat rate curves. -/
def subscenariosProjectHeatRateCurves : File where
  name := "subscenarios_project_heat_rate_curves.csv"
  lines := [
    "project,subscenario_id,name,description",
    "gas_ct,1,two_point,"]

/-- The registry of project load zones. -/
def subscenariosProjectLoadZones : File where
  name := "subscenarios_project_load_zones.csv"
  lines := [
    "subscenario_id,name,description",
    "1,base,Gas in the north; renewables in the south"]

/-- The registry of project operational chars. -/
def subscenariosProjectOperationalChars : File where
  name := "subscenarios_project_operational_chars.csv"
  lines := [
    "subscenario_id,name,description",
    "1,base,"]

/-- The registry of project portfolio. -/
def subscenariosProjectPortfolio : File where
  name := "subscenarios_project_portfolio.csv"
  lines := [
    "subscenario_id,name,description",
    "1,gas_wind_solar,One gas turbine and two renewable projects"]

/-- The registry of project rps zones. -/
def subscenariosProjectRpsZones : File where
  name := "subscenarios_project_rps_zones.csv"
  lines := [
    "subscenario_id,name,description",
    "1,renewables,Wind and solar count towards the RPS"]

/-- The registry of project variable generator profiles. -/
def subscenariosProjectVariableGeneratorProfiles : File where
  name := "subscenarios_project_variable_generator_profiles.csv"
  lines := [
    "project,subscenario_id,name,description",
    "wind,1,typical_day,",
    "solar,1,typical_day,"]

/-- The registry of rps target. -/
def subscenariosRpsTarget : File where
  name := "subscenarios_rps_target.csv"
  lines := [
    "subscenario_id,name,description",
    "1,fifty_percent,"]

/-- The registry of rps zones. -/
def subscenariosRpsZones : File where
  name := "subscenarios_rps_zones.csv"
  lines := [
    "subscenario_id,name,description",
    "1,single_rps_zone,"]

/-- The registry of temporal. -/
def subscenariosTemporal : File where
  name := "subscenarios_temporal.csv"
  lines := [
    "subscenario_id,name,description",
    "1,one_day,One day of 3-hour timepoints",
    "2,two_subproblems_linked,Two 24-hour subproblems linked by two timepoints"]

/-- The timepoints of the horizons of the first temporal fragment. -/
def temporalHorizonTimepoints : File where
  name := "temporal_horizon_timepoints.csv"
  lines := [
    "temporal_scenario_id,subproblem_id,stage_id,timepoint,balancing_type_horizon,horizon",
    "1,1,1,1,day,1",
    "1,1,1,2,day,1",
    "1,1,1,3,day,1",
    "1,1,1,4,day,1",
    "1,1,1,5,day,1",
    "1,1,1,6,day,1",
    "1,1,1,7,day,1",
    "1,1,1,8,day,1"]

/-- The spans of the horizons of the second temporal fragment. -/
def temporalHorizonTimepointsStartEnd : File where
  name := "temporal_horizon_timepoints_start_end.csv"
  lines := [
    "temporal_scenario_id,subproblem_id,stage_id,balancing_type_horizon,horizon,tmp_start,tmp_end",
    "2,1,1,day,1,101,104",
    "2,2,1,day,2,201,204"]

/-- The horizons. -/
def temporalHorizons : File where
  name := "temporal_horizons.csv"
  lines := [
    "temporal_scenario_id,subproblem_id,balancing_type_horizon,horizon,boundary",
    "1,1,day,1,circular",
    "2,1,day,1,linear",
    "2,2,day,2,linked"]

/-- The periods. -/
def temporalPeriods : File where
  name := "temporal_periods.csv"
  lines := [
    "temporal_scenario_id,period,discount_factor,number_years_represented",
    "1,2030,1.0,10.0",
    "2,2030,1.0,10.0"]

/-- The subproblems. -/
def temporalSubproblems : File where
  name := "temporal_subproblems.csv"
  lines := [
    "temporal_scenario_id,subproblem_id",
    "1,1",
    "2,1",
    "2,2"]

/-- The timepoints. -/
def temporalTimepoints : File where
  name := "temporal_timepoints.csv"
  lines := [
    "temporal_scenario_id,subproblem_id,stage_id,timepoint,period,number_of_hours_in_timepoint,timepoint_weight,linked_timepoint,month,hour_of_day",
    "1,1,1,1,2030,3,365,,1,0",
    "1,1,1,2,2030,3,365,,1,3",
    "1,1,1,3,2030,3,365,,1,6",
    "1,1,1,4,2030,3,365,,1,9",
    "1,1,1,5,2030,3,365,,1,12",
    "1,1,1,6,2030,3,365,,1,15",
    "1,1,1,7,2030,3,365,,1,18",
    "1,1,1,8,2030,3,365,,1,21",
    "2,1,1,101,2030,6,182.5,,1,0",
    "2,1,1,102,2030,6,182.5,,1,6",
    "2,1,1,103,2030,6,182.5,-1,1,12",
    "2,1,1,104,2030,6,182.5,0,1,18",
    "2,2,1,201,2030,6,182.5,,1,0",
    "2,2,1,202,2030,6,182.5,,1,6",
    "2,2,1,203,2030,6,182.5,,1,12",
    "2,2,1,204,2030,6,182.5,,1,18"]

/-- All files of the store. -/
def files : List File :=
  [readme, scenarios, entityMembers, entityZones, projectHeatRateCurves,
    projectOperationalChars, subscenariosLoad, subscenariosLoadZones,
    subscenariosProjectHeatRateCurves, subscenariosProjectLoadZones,
    subscenariosProjectOperationalChars, subscenariosProjectPortfolio,
    subscenariosProjectRpsZones, subscenariosProjectVariableGeneratorProfiles,
    subscenariosRpsTarget, subscenariosRpsZones, subscenariosTemporal,
    temporalHorizonTimepoints, temporalHorizonTimepointsStartEnd, temporalHorizons,
    temporalPeriods, temporalSubproblems, temporalTimepoints]

end CapacityExpansion.Bundled.Simple
