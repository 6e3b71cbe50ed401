import CapacityExpansion.Data.Sorting
import CapacityExpansion.Files.Action
import CapacityExpansion.Patch.Rows
import CapacityExpansion.Patch.Tables
import CapacityExpansion.Scenario.Loading
import CapacityExpansion.Toml.Printing

/-!
# Patching stores

A patched copy of a store: its scenarios, merged with a patch if there is one,
its files of rows, and then the files which have patches. Every patch of a file
starts from the file of the store, so the last one for a file decides.

* `StorePatch.build`: the patched copy in a folder.
-/

namespace CapacityExpansion.Patch

/-- Changes to a store. -/
structure StorePatch where
  /-- The folder of the store. -/
  base : String
  /-- The patches of its files. -/
  filePatches : List FilePatch := []
  /-- The patch of its scenarios. -/
  scenarios : Option Toml.Table := none

/-- The files which hold rows, by the last part of their name. -/
def isRowFile (name : String) : Bool :=
  (Files.extension? name).any fun ext => ext.toList.map Char.toLower == "csv".toList

/-- The text of scenarios with a patch applied. -/
def mergeScenarios (base : String) (patch : Toml.Table) : Attempt String := do
  let scenarios ← Attempt.within "Invalid scenarios file" <|
    Attempt.ofDocument (Toml.readText Toml.anyTable base)
  let isTable (name : String) : Bool := (Toml.lookUp? patch name).any Toml.isTable
  match (sortTexts (patch.map Prod.fst)).find? fun name => !isTable name with
  | some name => throw (.stated s!"Scenario {name} must be a table in the scenarios patch")
  | none => return Toml.write (Toml.arrange (mergeTables scenarios patch))

namespace FilePatch

/-- The text of a file of a store before it is patched. -/
def baseText (patch : FilePatch) (files : Files) (base : String) : Attempt String :=
  let path := Files.join base patch.fileName
  if files.isFile path then Attempt.ofFiles (files.readText path)
  else match patch.header with
    | some header => .ok (emptyText header)
    | none => .error <| .stated <|
        patch.fileName ++ " is not in the base store and the patch has no header"

/-- Writes the patched file of a store to a folder. -/
def save (patch : FilePatch) (base folder : String) : FileAction Unit := do
  let text ← FileAction.look fun files => patch.baseText files base
  let patched ← FileAction.look fun _ =>
    Attempt.within ("Error patching " ++ patch.fileName) <|
      (patch.patchText text).mapError Problem.failure
  FileAction.writeText (Files.join folder patch.fileName) patched

end FilePatch

namespace StorePatch

variable (patch : StorePatch)

/-- The patch with a patch of the scenarios. -/
def withScenarios (text : String) : Except Misuse StorePatch :=
  if patch.scenarios.isSome then .error .repeatedScenarios
  else match Toml.readText Toml.anyTable text with
    | .ok scenarios => .ok { patch with scenarios := some scenarios }
    | .error _ => .error .malformedScenarios

/-- Writes the scenarios to a folder. -/
def buildScenarios (folder : String) : FileAction Unit := do
  let source := Files.join patch.base Scenario.fileName
  let target := Files.join folder Scenario.fileName
  match patch.scenarios with
  | none => FileAction.within ("Could not copy " ++ source) (FileAction.change (·.copy source target))
  | some changes =>
    let text ← FileAction.within ("Could not read " ++ source) (FileAction.ask (·.readText source))
    let merged ← FileAction.look fun _ => mergeScenarios text changes
    FileAction.writeText target merged

/-- Copies a file of rows to a folder. -/
def copyRows (folder name : String) : FileAction Unit := do
  let source := Files.join patch.base name
  let isFile ← FileAction.look fun files => .ok (files.isFile source)
  if isRowFile name && isFile then FileAction.change (·.copy source (Files.join folder name))

/-- Writes the patched store to a folder, which must exist. -/
def build (folder : String) : FileAction Unit := do
  patch.buildScenarios folder
  let names ← FileAction.ask (·.list patch.base)
  names.forM (patch.copyRows folder)
  patch.filePatches.forM fun filePatch => filePatch.save patch.base folder

end StorePatch

end CapacityExpansion.Patch
