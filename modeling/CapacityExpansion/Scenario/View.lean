import CapacityExpansion.Scenario.Basic
import CapacityExpansion.Store.Basic

/-!
# The scenario view

A scenario with the name of every fragment it selects, one row for each
category. The view is a projection and can be had of any scenario: a selector
which names no fragment shows up without a name.
-/

namespace CapacityExpansion

/-- A category in the view of a scenario. -/
structure ViewRow where
  /-- The category. -/
  category : Category
  /-- The selected fragment. -/
  selected : Option Nat
  /-- The name of the selected fragment, if it is registered. -/
  name : Option String
  deriving DecidableEq, Repr

/-- A scenario with the names of the fragments it selects. -/
structure ScenarioView where
  /-- The name of the scenario. -/
  scenario : String
  /-- Its description. -/
  description : String
  /-- The features switched on, in order. -/
  features : List Feature
  /-- Whether it has been validated. -/
  validationStatus : ValidationStatus
  /-- Whether it has been run. -/
  runStatus : RunStatus
  /-- The categories, in order. -/
  rows : List ViewRow
  deriving DecidableEq, Repr

namespace ScenarioView

/-- The view of a scenario. -/
def ofScenario (store : Store) (s : Scenario) : ScenarioView where
  scenario := s.name
  description := s.description
  features := s.enabled
  validationStatus := s.validationStatus
  runStatus := s.runStatus
  rows := Category.all.map fun category =>
    { category
      selected := s.selected category
      name := ((s.selector? category).bind store.fragment?).map Fragment.name }

variable (v : ScenarioView)

/-- The rows of categories with a selected fragment. -/
def selectedRows : List ViewRow := v.rows.filter (·.selected.isSome)

/-- The line of a row with a selected fragment. -/
def rowText (row : ViewRow) (id : Nat) : String :=
  "  " ++ row.category.selectorColumn ++ s!" = {id} (" ++ row.name.getD "<missing>" ++ ")\n"

/-- The text of a view. -/
def text : String :=
  "Scenario: " ++ v.scenario ++ "\n" ++
    (if v.description.isEmpty then "" else "Description: " ++ v.description ++ "\n") ++
    "Features: " ++
    (if v.features.isEmpty then "none" else ", ".intercalate (v.features.map Feature.name)) ++ "\n" ++
    "Status: " ++ v.validationStatus.name ++ " / " ++ v.runStatus.name ++ "\n" ++
    String.join (v.rows.map fun row => row.selected.elim "" (rowText row))

end ScenarioView

end CapacityExpansion
