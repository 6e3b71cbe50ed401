import CapacityExpansion.Report
import CapacityExpansion.Requirements.Table
import CapacityExpansion.Scenario.Basic

/-!
# Checking the requirements

A scenario which does not select a required category has an error; one which
selects a category exclusive to a feature it has switched off has a warning.
A category required more than once is missed once, where it is first required.
-/

namespace CapacityExpansion.Requirements

variable (r : Requirements) (s : Scenario)

/-- The error of a category which every scenario must select. -/
def missingAlways (category : Category) : Violation where
  kind := .featureSelectorIncoherence
  severity := .error
  subject := .category category
  message := "A " ++ category.name ++ " subscenario must be selected for every scenario"

/-- The error of a category which a feature requires. -/
def missingFor (feature : Feature) (category : Category) : Violation where
  kind := .featureSelectorIncoherence
  severity := .error
  subject := .category category
  message := "Feature " ++ feature.name ++ " is enabled, but no " ++ category.name ++
    " subscenario is selected"

/-- The warning about a selected fragment which is of no use. -/
def ignoredSelector (feature : Feature) (selector : Selector) : Violation where
  kind := .featureSelectorIncoherence
  severity := .warning
  subject := .fragment selector
  message := "Feature " ++ feature.name ++ " is disabled (" ++ feature.flagName ++
    " = false), so this selector will be ignored"

/-- The categories for which a scenario selects nothing. -/
def unselected (categories : List Category) : List Category :=
  categories.filter fun category => (s.selected category).isNone

/-- The violations of the rules of some features, given the categories required before them. -/
def ruleViolations : (before : OrderedSet Category) → List Feature → List Violation
  | _, [] => []
  | before, feature :: rest =>
    if s.features feature then
      let now := before.insertAll (r.rule feature).required
      (unselected s (now.elements.drop before.elements.length)).map (missingFor feature) ++
        ruleViolations now rest
    else
      ((r.rule feature).exclusive.filterMap s.selector?).map (ignoredSelector feature) ++
        ruleViolations before rest

/-- The report on the features and the selectors of a scenario. -/
def check : Report where
  violations :=
    let always := OrderedSet.ofList r.always
    (unselected s always.elements).map missingAlways ++ ruleViolations r s always Feature.all

end CapacityExpansion.Requirements
