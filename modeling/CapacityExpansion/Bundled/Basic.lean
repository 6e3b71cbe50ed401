import CapacityExpansion.Data.Sorting
import CapacityExpansion.Files.Action
import CapacityExpansion.Scenario.Loading

/-!
# Bundled stores

Some stores come with the program, for trying it out. Such a store is a list of
files, which can be written to a new folder and used like any other store.
-/

namespace CapacityExpansion.Bundled

/-- A file of a bundled store. -/
structure File where
  /-- The name of the file. -/
  name : String
  /-- Its lines. -/
  lines : List String
  deriving DecidableEq, Repr

/-- The text of a file. -/
def File.text (file : File) : String := String.join (file.lines.map (· ++ "\n"))

/-- A bundled store. -/
structure BundledStore where
  /-- Its name. -/
  name : String
  /-- Its files. -/
  files : List File
  deriving DecidableEq, Repr

/-- The file with the description of a store. -/
def readmeFile : String := "README.txt"

namespace BundledStore

variable (store : BundledStore)

/-- The text of a file of the store. -/
def fileText (name : String) : Attempt String :=
  match store.files.find? (·.name == name) with
  | some file => .ok file.text
  | none => .error (.stated (name ++ " missing from example '" ++ store.name ++ "'"))

/-- What the store is about. -/
def readme : Attempt String := store.fileText readmeFile

/-- The names of its scenarios, in alphabetical order. -/
def scenarioNames : Attempt (List String) := do
  let text ← store.fileText Scenario.fileName
  let scenarios ← Attempt.ofDocument (Toml.readText Toml.anyTable text)
  return sortTexts (scenarios.map Prod.fst)

/-- Writes the files of the store to a new folder. -/
def extract (folder : String) : FileAction Unit := do
  FileAction.within ("Could not create " ++ folder) (FileAction.change (·.createFolder folder))
  store.files.forM fun file => FileAction.writeText (Files.join folder file.name) file.text

end BundledStore

end CapacityExpansion.Bundled
