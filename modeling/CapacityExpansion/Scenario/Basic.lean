import CapacityExpansion.Scenario.Category
import CapacityExpansion.Scenario.Feature

/-!
# Scenarios

A scenario selects at most one fragment of every category and switches features
on or off. Two statuses record what became of it; they are carried along for the
reader and nothing depends on them.

* `Scenario.selectors`: the selected fragments, in category order;
* `Scenario.enabled`: the features switched on, in feature order.
-/

namespace CapacityExpansion

/-- Whether a scenario has been validated. -/
inductive ValidationStatus where
  /-- It has not been validated yet. -/
  | notValidated
  /-- It has been validated without errors. -/
  | valid
  /-- Errors have been found. -/
  | invalid
  deriving DecidableEq, Repr

/-- The name of a validation status. -/
def ValidationStatus.name : ValidationStatus → String
  | .notValidated => "not_validated"
  | .valid => "valid"
  | .invalid => "invalid"

/-- All validation statuses. -/
def ValidationStatus.all : List ValidationStatus := [.notValidated, .valid, .invalid]

/-- Whether a scenario has been run. -/
inductive RunStatus where
  /-- It has never been run. -/
  | notRun
  /-- It is running. -/
  | running
  /-- It has been run to its end. -/
  | complete
  /-- Its run ended with an error. -/
  | failed
  deriving DecidableEq, Repr

/-- The name of a run status. -/
def RunStatus.name : RunStatus → String
  | .notRun => "not_run"
  | .running => "running"
  | .complete => "complete"
  | .failed => "failed"

/-- All run statuses. -/
def RunStatus.all : List RunStatus := [.notRun, .running, .complete, .failed]

/-- A scenario. -/
structure Scenario where
  /-- Its name. -/
  name : String
  /-- A description. -/
  description : String := ""
  /-- Which features are switched on. -/
  features : Feature → Bool := fun _ => false
  /-- The fragment selected for each category. -/
  selected : Category → Option Nat := fun _ => none
  /-- Whether it has been validated. -/
  validationStatus : ValidationStatus := .notValidated
  /-- Whether it has been run. -/
  runStatus : RunStatus := .notRun

namespace Scenario

variable (s : Scenario)

/-- The scenario with another fragment of a category, or none. -/
def select (category : Category) (id : Option Nat) : Scenario :=
  { s with selected := fun c => if c = category then id else s.selected c }

/-- The scenario with a feature switched on or off. -/
def switch (feature : Feature) (on : Bool) : Scenario :=
  { s with features := fun f => if f = feature then on else s.features f }

/-- The selected fragments, in category order. -/
def selectors : List Selector :=
  Category.all.filterMap fun category => (s.selected category).map fun id => ⟨category, id⟩

/-- The selector of a category, if a fragment is selected. -/
def selector? (category : Category) : Option Selector :=
  (s.selected category).map fun id => ⟨category, id⟩

/-- The features switched on, in feature order. -/
def enabled : List Feature := Feature.all.filter s.features

/-- The selectors are those of the categories with a selected fragment. -/
theorem mem_selectors {s : Scenario} {selector : Selector} :
    selector ∈ s.selectors ↔ s.selected selector.category = some selector.id := by
  simp only [selectors, List.mem_filterMap, Option.map_eq_some_iff]
  constructor
  · rintro ⟨c, -, id, h, rfl⟩
    exact h
  · exact fun h => ⟨selector.category, Category.mem_all _, selector.id, h, rfl⟩

end Scenario

end CapacityExpansion
