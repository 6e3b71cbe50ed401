import CapacityExpansion.Store.Basic

/-!
# Cross-references

What fragments of one category must have in common with the selected fragment
of another one. Zones which projects are assigned to must exist, every project
of the portfolio must have operational characteristics, and so on.
-/

namespace CapacityExpansion.Integrity

/-- Something fragments depend on: fragments of a category, or project fragments. -/
inductive Node where
  /-- The selected fragment of a category. -/
  | scenario (category : Category)
  /-- The project fragments which operational characteristics name. -/
  | project (category : ProjectCategory)
  deriving DecidableEq, Repr

/-- The name of a node. -/
def Node.name : Node → String
  | .scenario category => category.name
  | .project category => category.title

/-- What a fragment depends on, and the rule which holds between the two. -/
inductive Dependency where
  /-- Project fragments named by operational characteristics are registered for the project. -/
  | subFragment (category : ProjectCategory)
  /-- Every entity of the dependency has an entry. -/
  | coversEntities (category : Category)
  /-- Every entity is one of the dependency. -/
  | entitiesWithin (category : Category)
  /-- Every zone is one of the dependency. -/
  | zonesWithin (category : Category)
  deriving DecidableEq, Repr

namespace Dependency

/-- What is depended on. -/
def node : Dependency → Node
  | .subFragment category => .project category
  | .coversEntities category => .scenario category
  | .entitiesWithin category => .scenario category
  | .zonesWithin category => .scenario category

/-- The name of the rule. -/
def rule : Dependency → String
  | .subFragment _ => "sub_fragment"
  | .coversEntities _ => "covers_entities"
  | .entitiesWithin _ => "entities_within"
  | .zonesWithin _ => "zones_within"

end Dependency

/-- A reference from the fragments of a category. -/
structure CrossReference where
  /-- The category whose fragments refer to something. -/
  dependent : Category
  /-- What they refer to. -/
  dependency : Dependency
  deriving DecidableEq, Repr

open Dependency in
/-- The cross-references which are checked. -/
def crossReferences : List CrossReference := [
  -- operational characteristics
  ⟨.projectOperationalChars, subFragment .heatRateCurves⟩,
  ⟨.projectOperationalChars, subFragment .startupChars⟩,
  ⟨.projectOperationalChars, subFragment .variableGeneratorProfiles⟩,
  ⟨.projectOperationalChars, subFragment .hydroOperationalChars⟩,
  ⟨.projectOperationalChars, coversEntities .projectPortfolio⟩,
  -- project geography
  ⟨.projectLoadZones, coversEntities .projectPortfolio⟩,
  ⟨.projectLoadZones, zonesWithin .loadZones⟩,
  ⟨.projectRpsZones, entitiesWithin .projectPortfolio⟩,
  ⟨.projectRpsZones, zonesWithin .rpsZones⟩,
  ⟨.projectCarbonCapZones, entitiesWithin .projectPortfolio⟩,
  ⟨.projectCarbonCapZones, zonesWithin .carbonCapZones⟩,
  ⟨.projectPrmZones, entitiesWithin .projectPortfolio⟩,
  ⟨.projectPrmZones, zonesWithin .prmZones⟩,
  ⟨.projectLocalCapacityZones, entitiesWithin .projectPortfolio⟩,
  ⟨.projectLocalCapacityZones, zonesWithin .localCapacityZones⟩,
  -- reserve balancing areas
  ⟨.projectLfReservesUpBa, entitiesWithin .projectPortfolio⟩,
  ⟨.projectLfReservesUpBa, zonesWithin .lfReservesUpBa⟩,
  ⟨.projectLfReservesDownBa, entitiesWithin .projectPortfolio⟩,
  ⟨.projectLfReservesDownBa, zonesWithin .lfReservesDownBa⟩,
  ⟨.projectRegulationUpBa, entitiesWithin .projectPortfolio⟩,
  ⟨.projectRegulationUpBa, zonesWithin .regulationUpBa⟩,
  ⟨.projectRegulationDownBa, entitiesWithin .projectPortfolio⟩,
  ⟨.projectRegulationDownBa, zonesWithin .regulationDownBa⟩,
  ⟨.projectFrequencyResponseBa, entitiesWithin .projectPortfolio⟩,
  ⟨.projectFrequencyResponseBa, zonesWithin .frequencyResponseBa⟩,
  ⟨.projectSpinningReservesBa, entitiesWithin .projectPortfolio⟩,
  ⟨.projectSpinningReservesBa, zonesWithin .spinningReservesBa⟩,
  -- other project data
  ⟨.projectSpecifiedCapacity, entitiesWithin .projectPortfolio⟩,
  ⟨.projectElccChars, entitiesWithin .projectPortfolio⟩,
  ⟨.projectLocalCapacityChars, entitiesWithin .projectPortfolio⟩,
  -- transmission
  ⟨.transmissionLoadZones, coversEntities .transmissionPortfolio⟩,
  ⟨.transmissionLoadZones, zonesWithin .loadZones⟩,
  ⟨.transmissionCarbonCapZones, entitiesWithin .transmissionPortfolio⟩,
  ⟨.transmissionCarbonCapZones, zonesWithin .carbonCapZones⟩,
  ⟨.transmissionSpecifiedCapacity, entitiesWithin .transmissionPortfolio⟩]

/-- No cross-reference is listed twice. -/
theorem nodup_crossReferences : crossReferences.Nodup := by decide

end CapacityExpansion.Integrity
