import CapacityExpansion.Files.Action
import CapacityExpansion.Results.Metadata
import CapacityExpansion.Results.Tables

/-!
# Folders of results

The results of a scenario go to a folder of their own, by default one named
after the store and the scenario. A folder which has something in it is emptied
first, if that is allowed.

* `defaultFolder`: the folder for the results of a scenario of a store;
* `prepareFolder`: makes sure that there is an empty folder;
* `writeAll`: writes all results to a folder.
-/

namespace CapacityExpansion.Results

/-- The folder for the results of a scenario of a store, below a root. -/
def defaultFolder (files : Files) (store scenario root : String) : Attempt String := do
  let place ← Attempt.within "Could not resolve path to store" (Attempt.ofFiles (files.canonical store))
  match place.getLast? with
  | none => throw (.stated "Store cannot be in root folder")
  | some name => return Files.join (Files.join root name) scenario

/-- The failure to overwrite results without permission. -/
def overwriteFailure : Failure :=
  .stated ("Output folder already exists and is not empty. Please delete the folder or pass the " ++
    "--overwrite command-line option.")

/-- Whether a folder has something in it, if there is such a folder. -/
def isOccupied? (files : Files) (folder : String) : Option Bool :=
  match files.list folder with
  | .ok names => some (!names.isEmpty)
  | .error _ => none

/-- Makes sure that there is an empty folder, and says whether something was deleted for it. -/
def prepareFolder (folder : String) (mayOverwrite : Bool) : FileAction Bool := do
  let occupied ← FileAction.look fun files => .ok (isOccupied? files folder)
  match occupied with
  | some false => return false
  | some true =>
    if !mayOverwrite then throw overwriteFailure
    FileAction.within "Could not delete folder" (FileAction.removeFolder folder)
    FileAction.createFolders folder
    return true
  | none =>
    FileAction.createFolders folder
    return false

/-- Writes a file of results to a folder. -/
def writeFile (folder : String) (file : OutputFile) : FileAction Unit := do
  let path := Files.join folder file.name
  FileAction.within ("Could not create " ++ path) (FileAction.writeText path file.text)

/-- Writes all results of a scenario to a folder. -/
def writeAll (provenance : Provenance) (folder store : String) (r : ResolvedScenario)
    (view : ScenarioView) : FileAction Unit := do
  let path := Files.join folder metadataFile
  FileAction.within ("Could not write " ++ path) <|
    FileAction.writeText path (Toml.write (metadata provenance store r))
  (tables r view).forM (writeFile folder)

end CapacityExpansion.Results
