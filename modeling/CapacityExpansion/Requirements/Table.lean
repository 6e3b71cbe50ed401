import CapacityExpansion.Data.OrderedSet
import CapacityExpansion.Scenario.Category
import CapacityExpansion.Scenario.Feature

/-!
# Requirements

Which categories a scenario must select. Some are required of every scenario,
others only of those with a certain feature. A category can also be *exclusive*
to a feature: it makes sense only with the feature, so selecting it while the
feature is off is of no use.

* `Requirements.Coherent`: no category is exclusive to two features, or to a
  feature and required without it;
* `Requirements.required`: the categories required for some features.
-/

namespace CapacityExpansion

/-- What a feature means for the categories. -/
structure FeatureRule where
  /-- The categories which must be selected if the feature is on. -/
  required : List Category := []
  /-- The categories which make sense only if the feature is on. -/
  exclusive : List Category := []
  deriving DecidableEq, Repr

/-- Which categories a scenario must select. -/
structure Requirements where
  /-- The categories every scenario must select. -/
  always : List Category
  /-- The rule of each feature. -/
  rule : Feature → FeatureRule

namespace Requirements

variable (r : Requirements)

/-- The categories exclusive to features, each with its feature, in feature order. -/
def exclusives : List (Category × Feature) :=
  Feature.all.flatMap fun feature => (r.rule feature).exclusive.map (·, feature)

/-- The categories required by features, each with its feature, in feature order. -/
def requirements : List (Category × Feature) :=
  Feature.all.flatMap fun feature => (r.rule feature).required.map (·, feature)

/-- The feature a category is exclusive to. -/
def owner? (category : Category) : Option Feature :=
  (r.exclusives.find? (·.1 == category)).map Prod.snd

/-- The requirements do not contradict each other. -/
structure Coherent : Prop where
  /-- A category is exclusive to one feature at most, and listed once. -/
  nodup : (r.exclusives.map Prod.fst).Nodup
  /-- What every scenario must select is exclusive to no feature. -/
  always_free : ∀ category ∈ r.always, r.owner? category = none
  /-- What a feature requires is exclusive to no other feature. -/
  required_own : ∀ p ∈ r.requirements, ∀ owner, r.owner? p.1 = some owner → owner = p.2

/-- The categories required of a scenario with some features, in the order they are first named. -/
def required (features : List Feature) : OrderedSet Category :=
  (OrderedSet.ofList r.always).insertAll (features.flatMap fun f => (r.rule f).required)

/-- A category is required if every scenario must select it or one of the features requires it. -/
theorem mem_required {r : Requirements} {features : List Feature} {category : Category} :
    category ∈ (r.required features).elements ↔
      category ∈ r.always ∨ ∃ f ∈ features, category ∈ (r.rule f).required := by
  simp [required, OrderedSet.mem_insertAll, OrderedSet.mem_ofList]

/-- The rule of a feature whose categories are required with it and exclusive to it. -/
def needs (categories : List Category) : FeatureRule := ⟨categories, categories⟩

/-- The rules which hold unless others are given. -/
def bundledRule : Feature → FeatureRule
  | .transmission => {
      required := [.transmissionPortfolio, .transmissionLoadZones, .transmissionOperationalChars]
      exclusive := [.transmissionPortfolio, .transmissionLoadZones, .transmissionSpecifiedCapacity,
        .transmissionNewCost, .transmissionOperationalChars] }
  | .transmissionHurdleRates => needs [.transmissionHurdleRates]
  | .simultaneousFlowLimits =>
    needs [.transmissionSimultaneousFlowLimits, .transmissionSimultaneousFlowLimitLineGroups]
  | .lfReservesUp => needs [.lfReservesUpBa, .projectLfReservesUpBa, .lfReservesUp]
  | .lfReservesDown => needs [.lfReservesDownBa, .projectLfReservesDownBa, .lfReservesDown]
  | .regulationUp => needs [.regulationUpBa, .projectRegulationUpBa, .regulationUp]
  | .regulationDown => needs [.regulationDownBa, .projectRegulationDownBa, .regulationDown]
  | .frequencyResponse =>
    needs [.frequencyResponseBa, .projectFrequencyResponseBa, .frequencyResponse]
  | .spinningReserves => needs [.spinningReservesBa, .projectSpinningReservesBa, .spinningReserves]
  | .rps => needs [.rpsZones, .projectRpsZones, .rpsTarget]
  | .carbonCap => needs [.carbonCapZones, .projectCarbonCapZones, .carbonCapTarget]
  | .trackCarbonImports => needs [.transmissionCarbonCapZones]
  | .prm => {
      required := [.prmZones, .projectPrmZones, .prmRequirement]
      exclusive := [.prmZones, .projectPrmZones, .prmRequirement, .projectElccChars,
        .projectPrmEnergyOnly] }
  | .elccSurface => needs [.elccSurface]
  | .localCapacity => {
      required := [.localCapacityZones, .projectLocalCapacityZones, .localCapacityRequirement]
      exclusive := [.localCapacityZones, .projectLocalCapacityZones, .localCapacityRequirement,
        .projectLocalCapacityChars] }
  | .multiStage => {}
  | .tuning => needs [.tuning]

/-- The requirements which hold unless others are given. Whether a scenario has several stages is
    seen from its temporal hierarchy, so nothing is required for that. -/
def bundled : Requirements where
  always := [.temporal, .loadZones, .load, .projectPortfolio, .projectOperationalChars,
    .projectLoadZones]
  rule := bundledRule

/-- The bundled requirements do not contradict each other. -/
theorem coherent_bundled : bundled.Coherent where
  nodup := by decide +kernel
  always_free := by decide +kernel
  required_own := by decide +kernel

end Requirements

end CapacityExpansion
