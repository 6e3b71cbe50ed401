/-!
# Features

Optional features of the model, which a scenario switches on or off. Which
categories a feature needs is the subject of the requirements
(`CapacityExpansion.Requirements.Table`).
-/

namespace CapacityExpansion

/-- An optional feature of the model. -/
inductive Feature where
  /-- Transmission between load zones. -/
  | transmission
  /-- Hurdle rates on transmission flows. -/
  | transmissionHurdleRates
  /-- Simultaneous flow limits on groups of lines. -/
  | simultaneousFlowLimits
  /-- Load-following reserves (up). -/
  | lfReservesUp
  /-- Load-following reserves (down). -/
  | lfReservesDown
  /-- Regulation (up). -/
  | regulationUp
  /-- Regulation (down). -/
  | regulationDown
  /-- Frequency response. -/
  | frequencyResponse
  /-- Spinning reserves. -/
  | spinningReserves
  /-- Renewable portfolio standard. -/
  | rps
  /-- Carbon cap. -/
  | carbonCap
  /-- Tracking of carbon imports over transmission lines. -/
  | trackCarbonImports
  /-- Planning reserve margin. -/
  | prm
  /-- ELCC surface for the planning reserve margin. -/
  | elccSurface
  /-- Local capacity requirements. -/
  | localCapacity
  /-- Multiple stages per subproblem. -/
  | multiStage
  /-- Numerical tuning parameters. -/
  | tuning
  deriving DecidableEq, Repr

namespace Feature

/-- All features, in order. -/
def all : List Feature :=
  [.transmission, .transmissionHurdleRates, .simultaneousFlowLimits, .lfReservesUp,
    .lfReservesDown, .regulationUp, .regulationDown, .frequencyResponse, .spinningReserves, .rps,
    .carbonCap, .trackCarbonImports, .prm, .elccSurface, .localCapacity, .multiStage, .tuning]

/-- The name of a feature in files and messages. -/
def name : Feature → String
  | .transmission => "transmission"
  | .transmissionHurdleRates => "transmission_hurdle_rates"
  | .simultaneousFlowLimits => "simultaneous_flow_limits"
  | .lfReservesUp => "lf_reserves_up"
  | .lfReservesDown => "lf_reserves_down"
  | .regulationUp => "regulation_up"
  | .regulationDown => "regulation_down"
  | .frequencyResponse => "frequency_response"
  | .spinningReserves => "spinning_reserves"
  | .rps => "rps"
  | .carbonCap => "carbon_cap"
  | .trackCarbonImports => "track_carbon_imports"
  | .prm => "prm"
  | .elccSurface => "elcc_surface"
  | .localCapacity => "local_capacity"
  | .multiStage => "multi_stage"
  | .tuning => "tuning"

/-- The name of the flag which switches a feature on. -/
def flagName (f : Feature) : String := "of_" ++ f.name

/-- The feature with a name. -/
def ofName? (name : String) : Option Feature := all.find? (·.name == name)

/-- The position of a feature in the order. -/
def position (f : Feature) : Nat := all.idxOf f

/-- Every feature is listed. -/
theorem mem_all (f : Feature) : f ∈ all := by cases f <;> decide

/-- No feature is listed twice. -/
theorem nodup_all : all.Nodup := by decide

/-- A feature is found by its name. -/
theorem ofName?_name (f : Feature) : ofName? f.name = some f := by cases f <;> decide +kernel

end Feature

end CapacityExpansion
