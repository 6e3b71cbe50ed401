/-!
# Categories

The input of a scenario is divided into *categories*: the temporal structure, the
load zones, the portfolio of projects, their fuels and so on. For each category
the store holds any number of interchangeable *fragments*, and a scenario selects
at most one of them.

* `Category.all`: the categories in their order, which every listing follows;
* `Category.ofName?_name`: a category is found by its name.
-/

namespace CapacityExpansion

/-- A category of input. -/
inductive Category where
  /-- The temporal structure (periods, subproblems, stages, horizons and timepoints). -/
  | temporal
  /-- The set of load zones. -/
  | loadZones
  /-- Balancing areas for load-following reserves (up). -/
  | lfReservesUpBa
  /-- Balancing areas for load-following reserves (down). -/
  | lfReservesDownBa
  /-- Balancing areas for regulation (up). -/
  | regulationUpBa
  /-- Balancing areas for regulation (down). -/
  | regulationDownBa
  /-- Balancing areas for frequency response. -/
  | frequencyResponseBa
  /-- Balancing areas for spinning reserves. -/
  | spinningReservesBa
  /-- Renewable portfolio standard zones. -/
  | rpsZones
  /-- Carbon cap zones. -/
  | carbonCapZones
  /-- Planning reserve margin zones. -/
  | prmZones
  /-- Local capacity zones. -/
  | localCapacityZones
  /-- The projects that make up the portfolio. -/
  | projectPortfolio
  /-- Operational characteristics of each project. -/
  | projectOperationalChars
  /-- Project availability (e.g. planned outages). -/
  | projectAvailability
  /-- Fuels used by each project. -/
  | projectFuels
  /-- Fuel prices. -/
  | fuelPrices
  /-- The load zone of each project. -/
  | projectLoadZones
  /-- Project contributions to load-following reserves (up). -/
  | projectLfReservesUpBa
  /-- Project contributions to load-following reserves (down). -/
  | projectLfReservesDownBa
  /-- Project contributions to regulation (up). -/
  | projectRegulationUpBa
  /-- Project contributions to regulation (down). -/
  | projectRegulationDownBa
  /-- Project contributions to frequency response. -/
  | projectFrequencyResponseBa
  /-- Project contributions to spinning reserves. -/
  | projectSpinningReservesBa
  /-- The RPS zone of each project. -/
  | projectRpsZones
  /-- The carbon cap zone of each project. -/
  | projectCarbonCapZones
  /-- The PRM zone of each project. -/
  | projectPrmZones
  /-- Project ELCC characteristics. -/
  | projectElccChars
  /-- Energy-only PRM project settings. -/
  | projectPrmEnergyOnly
  /-- The local capacity zone of each project. -/
  | projectLocalCapacityZones
  /-- Project local capacity characteristics. -/
  | projectLocalCapacityChars
  /-- Specified (existing) project capacity. -/
  | projectSpecifiedCapacity
  /-- Fixed costs of specified project capacity. -/
  | projectSpecifiedFixedCost
  /-- Costs of new-build project capacity. -/
  | projectNewCost
  /-- Potential for new-build project capacity. -/
  | projectNewPotential
  /-- Build sizes for binary new-build projects. -/
  | projectNewBinaryBuildSize
  /-- The transmission lines that make up the portfolio. -/
  | transmissionPortfolio
  /-- The load zones connected by each transmission line. -/
  | transmissionLoadZones
  /-- Specified (existing) transmission capacity. -/
  | transmissionSpecifiedCapacity
  /-- Costs of new-build transmission capacity. -/
  | transmissionNewCost
  /-- Operational characteristics of each transmission line. -/
  | transmissionOperationalChars
  /-- Transmission hurdle rates. -/
  | transmissionHurdleRates
  /-- The carbon cap zone of each transmission line. -/
  | transmissionCarbonCapZones
  /-- Simultaneous flow limits. -/
  | transmissionSimultaneousFlowLimits
  /-- Line groups for simultaneous flow limits. -/
  | transmissionSimultaneousFlowLimitLineGroups
  /-- Load profiles. -/
  | load
  /-- Load-following reserve requirements (up). -/
  | lfReservesUp
  /-- Load-following reserve requirements (down). -/
  | lfReservesDown
  /-- Regulation requirements (up). -/
  | regulationUp
  /-- Regulation requirements (down). -/
  | regulationDown
  /-- Frequency response requirements. -/
  | frequencyResponse
  /-- Spinning reserve requirements. -/
  | spinningReserves
  /-- RPS targets. -/
  | rpsTarget
  /-- Carbon cap targets. -/
  | carbonCapTarget
  /-- Planning reserve margin requirements. -/
  | prmRequirement
  /-- ELCC surface. -/
  | elccSurface
  /-- Local capacity requirements. -/
  | localCapacityRequirement
  /-- Numerical tuning parameters. -/
  | tuning
  deriving DecidableEq, Repr

namespace Category

/-- All categories, in order. -/
def all : List Category :=
  [.temporal, .loadZones, .lfReservesUpBa, .lfReservesDownBa, .regulationUpBa, .regulationDownBa,
    .frequencyResponseBa, .spinningReservesBa, .rpsZones, .carbonCapZones, .prmZones,
    .localCapacityZones, .projectPortfolio, .projectOperationalChars, .projectAvailability,
    .projectFuels, .fuelPrices, .projectLoadZones, .projectLfReservesUpBa,
    .projectLfReservesDownBa, .projectRegulationUpBa, .projectRegulationDownBa,
    .projectFrequencyResponseBa, .projectSpinningReservesBa, .projectRpsZones,
    .projectCarbonCapZones, .projectPrmZones, .projectElccChars, .projectPrmEnergyOnly,
    .projectLocalCapacityZones, .projectLocalCapacityChars, .projectSpecifiedCapacity,
    .projectSpecifiedFixedCost, .projectNewCost, .projectNewPotential, .projectNewBinaryBuildSize,
    .transmissionPortfolio, .transmissionLoadZones, .transmissionSpecifiedCapacity,
    .transmissionNewCost, .transmissionOperationalChars, .transmissionHurdleRates,
    .transmissionCarbonCapZones, .transmissionSimultaneousFlowLimits,
    .transmissionSimultaneousFlowLimitLineGroups, .load, .lfReservesUp, .lfReservesDown,
    .regulationUp, .regulationDown, .frequencyResponse, .spinningReserves, .rpsTarget,
    .carbonCapTarget, .prmRequirement, .elccSurface, .localCapacityRequirement, .tuning]

/-- The name of a category in files and messages. -/
def name : Category → String
  | .temporal => "temporal"
  | .loadZones => "load_zones"
  | .lfReservesUpBa => "lf_reserves_up_ba"
  | .lfReservesDownBa => "lf_reserves_down_ba"
  | .regulationUpBa => "regulation_up_ba"
  | .regulationDownBa => "regulation_down_ba"
  | .frequencyResponseBa => "frequency_response_ba"
  | .spinningReservesBa => "spinning_reserves_ba"
  | .rpsZones => "rps_zones"
  | .carbonCapZones => "carbon_cap_zones"
  | .prmZones => "prm_zones"
  | .localCapacityZones => "local_capacity_zones"
  | .projectPortfolio => "project_portfolio"
  | .projectOperationalChars => "project_operational_chars"
  | .projectAvailability => "project_availability"
  | .projectFuels => "project_fuels"
  | .fuelPrices => "fuel_prices"
  | .projectLoadZones => "project_load_zones"
  | .projectLfReservesUpBa => "project_lf_reserves_up_ba"
  | .projectLfReservesDownBa => "project_lf_reserves_down_ba"
  | .projectRegulationUpBa => "project_regulation_up_ba"
  | .projectRegulationDownBa => "project_regulation_down_ba"
  | .projectFrequencyResponseBa => "project_frequency_response_ba"
  | .projectSpinningReservesBa => "project_spinning_reserves_ba"
  | .projectRpsZones => "project_rps_zones"
  | .projectCarbonCapZones => "project_carbon_cap_zones"
  | .projectPrmZones => "project_prm_zones"
  | .projectElccChars => "project_elcc_chars"
  | .projectPrmEnergyOnly => "project_prm_energy_only"
  | .projectLocalCapacityZones => "project_local_capacity_zones"
  | .projectLocalCapacityChars => "project_local_capacity_chars"
  | .projectSpecifiedCapacity => "project_specified_capacity"
  | .projectSpecifiedFixedCost => "project_specified_fixed_cost"
  | .projectNewCost => "project_new_cost"
  | .projectNewPotential => "project_new_potential"
  | .projectNewBinaryBuildSize => "project_new_binary_build_size"
  | .transmissionPortfolio => "transmission_portfolio"
  | .transmissionLoadZones => "transmission_load_zones"
  | .transmissionSpecifiedCapacity => "transmission_specified_capacity"
  | .transmissionNewCost => "transmission_new_cost"
  | .transmissionOperationalChars => "transmission_operational_chars"
  | .transmissionHurdleRates => "transmission_hurdle_rates"
  | .transmissionCarbonCapZones => "transmission_carbon_cap_zones"
  | .transmissionSimultaneousFlowLimits => "transmission_simultaneous_flow_limits"
  | .transmissionSimultaneousFlowLimitLineGroups => "transmission_simultaneous_flow_limit_line_groups"
  | .load => "load"
  | .lfReservesUp => "lf_reserves_up"
  | .lfReservesDown => "lf_reserves_down"
  | .regulationUp => "regulation_up"
  | .regulationDown => "regulation_down"
  | .frequencyResponse => "frequency_response"
  | .spinningReserves => "spinning_reserves"
  | .rpsTarget => "rps_target"
  | .carbonCapTarget => "carbon_cap_target"
  | .prmRequirement => "prm_requirement"
  | .elccSurface => "elcc_surface"
  | .localCapacityRequirement => "local_capacity_requirement"
  | .tuning => "tuning"

/-- The category with a name. -/
def ofName? (name : String) : Option Category := all.find? (·.name == name)

/-- The position of a category in the order. -/
def position (c : Category) : Nat := all.idxOf c

/-- The column of the scenario view which holds the selected fragment of a category. -/
def selectorColumn (c : Category) : String := c.name ++ "_scenario_id"

/-- Every category is listed. -/
theorem mem_all (c : Category) : c ∈ all := by cases c <;> decide

/-- No category is listed twice. -/
theorem nodup_all : all.Nodup := by decide

/-- No two categories have the same name. -/
theorem name_injective {c d : Category} (h : c.name = d.name) : c = d := by
  have key : ∀ l : List Category, (l.map name).Nodup → c ∈ l → d ∈ l → c = d := by
    intro l hl hc hd
    induction l with
    | nil => cases hc
    | cons a l ih =>
      rw [List.map_cons, List.nodup_cons] at hl
      rcases List.mem_cons.1 hc with rfl | hc' <;> rcases List.mem_cons.1 hd with rfl | hd'
      · rfl
      · exact absurd (h ▸ List.mem_map_of_mem hd') hl.1
      · exact absurd (h ▸ List.mem_map_of_mem hc') hl.1
      · exact ih hl.2 hc' hd'
  exact key all (by decide +kernel) (mem_all c) (mem_all d)

/-- A category is found by its name. -/
theorem ofName?_name (c : Category) : ofName? c.name = some c := by
  cases h : ofName? c.name with
  | none => exact absurd (List.find?_eq_none.1 h c (mem_all c)) (by simp)
  | some d =>
    have hd := List.find?_some h
    exact congrArg some (name_injective (by simpa using hd))

end Category

/-- A fragment of a category, named by a selector. -/
structure Selector where
  /-- The category. -/
  category : Category
  /-- The fragment. -/
  id : Nat
  deriving DecidableEq, Repr

/-- The text of a selector. -/
def Selector.text (selector : Selector) : String := selector.category.name ++ s!"={selector.id}"

end CapacityExpansion
