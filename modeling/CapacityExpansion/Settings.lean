import CapacityExpansion.Files.Documents

/-!
# Settings

What a user can set once for all runs, in a file of the configuration folder.
Everything has a default; unknown settings are left alone.

* `Settings.load`: the settings of a file, or the defaults;
* `Settings.defaultText`: a file which shows the defaults.
-/

namespace CapacityExpansion

/-- The name of the program. -/
def programName : String := "scenario-assembly"

/-- The version of the program. -/
def version : String := "0.3.0"

/-- The settings. -/
structure Settings where
  /-- How much is logged. -/
  logLevel : String := "info"
  /-- Whether results are overwritten without asking. -/
  overwrite : Bool := false
  /-- The folder below which results go. -/
  resultsRoot : String := "assembly_results"
  /-- The folder for drawings of the categories. -/
  graphRoot : String := "assembly_graphs"
  /-- A file with requirements to use in the place of the bundled ones. -/
  requirementsFile : Option String := none
  deriving DecidableEq, Repr

namespace Settings

/-- The file of the settings in the configuration folder. -/
def fileName : String := "settings.toml"

/-- How settings are read. -/
def format : Toml.Format Settings where
  title := "Settings"
  fields := [
    Toml.field "log_level" Toml.string fun logLevel s => { s with logLevel },
    Toml.field "overwrite" Toml.boolean fun overwrite s => { s with overwrite },
    Toml.field "results_root" Toml.path fun resultsRoot s => { s with resultsRoot },
    Toml.field "graph_results_root" Toml.path fun graphRoot s => { s with graphRoot },
    Toml.field "feature_requirements_path" Toml.path fun path s =>
      { s with requirementsFile := some path }]
  initial := {}
  closed := false

/-- The root of the results has a name, and the file with requirements exists. -/
def check (files : Files) (s : Settings) : Attempt Unit := do
  if s.resultsRoot.isEmpty then throw (.stated "results_root cannot be empty")
  if let some path := s.requirementsFile then
    if !files.isFile path then throw (.stated ("Feature requirements file not found: " ++ path))

/-- The settings of a file, or the defaults if there is no such file. -/
def load (files : Files) (path : String) : Attempt Settings :=
  if !files.isFile path then .ok {}
  else do
    let settings ← files.readDocument format.ofTable path
    Attempt.within (Failure.reading path) (settings.check files)
    return settings

/-! ## The default file -/

/-- A setting as the default file shows it. -/
structure Entry where
  /-- What it is for. -/
  description : String
  /-- Its line. -/
  line : String

/-- The settings which have a default other than none. -/
def defaultEntries : List Entry :=
  let s : Settings := {}
  [⟨"The default program log level", "log_level = \"" ++ s.logLevel ++ "\""⟩,
    ⟨"Whether to overwrite output files by default", "overwrite = " ++ toString s.overwrite⟩,
    ⟨"Folder under which resolved scenarios are written. Defaults to \x60assembly_results\x60.",
      "results_root = \"" ++ s.resultsRoot ++ "\""⟩,
    ⟨"Folder in which the category dependency graph is written. Defaults to \x60assembly_graphs\x60.",
      "graph_results_root = \"" ++ s.graphRoot ++ "\""⟩]

/-- The start of the default file. -/
def defaultHeader : String :=
  "# Program settings for " ++ programName ++ " v" ++ version ++ ".\n" ++
    "#\n" ++
    "# Every option is shown with its default value, commented out. Uncomment a line to change it.\n" ++
    "# The defaults for the installed version can be printed with:\n" ++
    "# \t" ++ programName ++ " settings show-default\n"

/-- A file which shows the defaults, all of them commented out. -/
def defaultText : String :=
  defaultHeader ++ String.join (defaultEntries.map fun entry =>
    "\n# # " ++ entry.description ++ "\n# " ++ entry.line ++ "\n")

end Settings

end CapacityExpansion
