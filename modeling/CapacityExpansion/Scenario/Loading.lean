import CapacityExpansion.Files.Documents
import CapacityExpansion.Scenario.Format
import CapacityExpansion.Text.Blank

/-!
# Loading scenarios

The scenarios of a store are in a file of their own, in the order in which they
are defined. There must be one at least, and none has a blank name.
-/

namespace CapacityExpansion.Scenario

/-- The file of the scenarios. -/
def fileName : String := "scenarios.toml"

/-- There are scenarios, and all of them have names. -/
def checkNames (scenarios : List Scenario) : Attempt Unit := do
  if scenarios.isEmpty then throw (.stated "No scenarios defined")
  if scenarios.any fun s => (Text.trim s.name).isEmpty then
    throw (.stated "Scenario names cannot be empty")

/-- The scenarios of the store in a folder. -/
def loadAll (files : Files) (folder : String) : Attempt (List Scenario) := do
  let path := Files.join folder fileName
  let scenarios ← files.readDocument ofTable path
  Attempt.within (Failure.reading path) (checkNames scenarios)
  return scenarios

end CapacityExpansion.Scenario
