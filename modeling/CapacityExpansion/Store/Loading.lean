import CapacityExpansion.Files.Records
import CapacityExpansion.Store.Columns
import CapacityExpansion.Temporal.Columns

/-!
# Loading the store

A store is a folder of files, each of which may be missing: a registry for every
category, the contents of the fragments, a registry for every category of
project fragments, and the temporal tables. Only what is wrong with a file by
itself is found here.

* `Store.load`: the store in a folder.
-/

namespace CapacityExpansion.Store

open Csv (Schema Row)

/-- The file of the members of fragments. -/
def membersFile : String := "entity_members.csv"

/-- The file of the zones of entities. -/
def zonesFile : String := "entity_zones.csv"

/-- The file of operational characteristics. -/
def charsFile : String := "project_operational_chars.csv"

/-- The file of heat rate curves. -/
def curvesFile : String := "project_heat_rate_curves.csv"

/-- The file of a registry. -/
def registryFile (registry : String) : String := "subscenarios_" ++ registry ++ ".csv"

variable (files : Files) (folder : String)

/-- What the records of a file make. -/
def loadFile {α β : Type} (name : String) (schema : Schema) (ofRow : Row schema.columns → α)
    (ofRows : List α → Except RowProblem β) : Attempt β := do
  let path := Files.join folder name
  let rows ← files.readAny (Csv.readRows schema) path
  Attempt.within (Failure.reading path) <|
    (ofRows (rows.map ofRow)).mapError fun problem => .stated problem.message

/-- The registries of all categories which have fragments. -/
def loadRegistries : Attempt (OrderedMap Category (OrderedMap Nat Fragment)) :=
  Category.all.foldlM (fun registries category => do
    let registry ← loadFile files folder (registryFile category.name) fragmentSchema fragmentOfRow
      fragmentsOfRows
    return if registry.isEmpty then registries else registries.insert category registry) ∅

/-- The registries of all categories of project fragments which have any. -/
def loadProjectRegistries :
    Attempt (OrderedMap ProjectCategory (OrderedMap (EntityName × Nat) Fragment)) :=
  ProjectCategory.all.foldlM (fun registries category => do
    let registry ← loadFile files folder (registryFile category.title) projectFragmentSchema
      projectFragmentOfRow projectFragmentsOfRows
    return if registry.isEmpty then registries else registries.insert category registry) ∅

/-- The temporal tables of all fragments which have any. -/
def loadTemporal : Attempt (OrderedMap Nat Temporal.Tables) :=
  Temporal.TableFile.all.foldlM (fun tables file => do
    let rows ← files.readAny (Csv.readRows file.fullSchema) (Files.join folder file.fileName)
    return file.addRows tables rows) ∅

/-- The store in a folder. -/
def load : Attempt Store := do
  let fragments ← loadRegistries files folder
  let members ← loadFile files folder membersFile memberSchema memberOfRow membersOfRows
  let zones ← loadFile files folder zonesFile zoneSchema zoneOfRow zonesOfRows
  let operationalChars ← loadFile files folder charsFile charsSchema charsOfRow charsOfRows
  let projectFragments ← loadProjectRegistries files folder
  let heatRateCurves ← loadFile files folder curvesFile curveSchema curveOfRow curvesOfRows
  let temporal ← loadTemporal files folder
  return { fragments, members, zones, operationalChars, projectFragments, heatRateCurves, temporal }

/-- The number of fragments registered in all categories. -/
def fragmentCount (s : Store) : Nat :=
  s.fragments.values.foldl (fun n fragments => n + fragments.size) 0

end CapacityExpansion.Store
