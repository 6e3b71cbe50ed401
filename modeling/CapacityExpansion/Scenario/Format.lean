import CapacityExpansion.Scenario.Basic
import CapacityExpansion.Toml.Reading

/-!
# The format of scenarios

A scenario is a table with its description, its features, the fragments it
selects and its statuses, all of which may be left out. Its name is the key of
the table.
-/

namespace CapacityExpansion.Scenario

open Toml (Format field)

/-- The features of a scenario, by their flags. -/
def featuresFormat : Format (Feature → Bool) where
  title := "FeatureFlags"
  fields := Feature.all.map fun feature =>
    field feature.flagName Toml.boolean fun on features f => if f = feature then on else features f
  initial := fun _ => false

/-- The selected fragments of a scenario, by their categories. -/
def selectedFormat : Format (Category → Option Nat) where
  title := "SubscenarioSelectors"
  fields := Category.all.map fun category =>
    field category.name Toml.identifier fun id selected c =>
      if c = category then some id else selected c
  initial := fun _ => none

/-- How a validation status is read. -/
def validationDecoder : Toml.Decoder ValidationStatus :=
  Toml.variant (ValidationStatus.all.map fun status => (status.name, status))

/-- How a run status is read. -/
def runDecoder : Toml.Decoder RunStatus :=
  Toml.variant (RunStatus.all.map fun status => (status.name, status))

/-- A scenario with a name. -/
def format (name : String) : Format Scenario where
  title := "ScenarioRaw"
  fields := [
    field "description" Toml.string fun description s => { s with description },
    field "features" featuresFormat.decoder fun features s => { s with features },
    field "subscenarios" selectedFormat.decoder fun selected s => { s with selected },
    field "validation_status" validationDecoder fun validationStatus s => { s with validationStatus },
    field "run_status" runDecoder fun runStatus s => { s with runStatus }]
  initial := { name }

/-- The scenarios of a table. -/
def ofTable (t : Toml.Table) : Except Toml.Problem (List Scenario) :=
  t.mapM fun (name, v) => (format name).decoder v

end CapacityExpansion.Scenario
