import CapacityExpansion.Assembly.Basic
import CapacityExpansion.Bundled.Catalog
import CapacityExpansion.Requirements.Loading
import CapacityExpansion.Results.Folder
import CapacityExpansion.Scenario.Loading
import CapacityExpansion.Session.World
import CapacityExpansion.Store.Loading

/-!
# Commands

What the program can be asked to do: resolve a scenario, validate one scenario
or all of them, show a scenario, draw the categories, and work with the bundled
stores and the settings.

* `resolve`, `validate`, `view`, `saveGraph`: the commands on stores;
* `exampleRun`: resolves or validates a bundled store.
-/

namespace CapacityExpansion.Session

/-- Where results go, as far as it is given. -/
structure OutputOptions where
  /-- The folder. -/
  folder : Option String := none
  /-- Whether the folder may be overwritten. -/
  overwrite : Bool := false
  deriving DecidableEq, Repr

/-! ## Parts of commands -/

/-- The file of the settings. -/
def settingsPath : Session String := do
  return Files.join (← get).environment.configFolder Settings.fileName

/-- The settings of the user. -/
def loadSettings : Session Settings := within "Failed to load settings." do
  if (← get).environment.ignoresSettings then return {}
  let path ← settingsPath
  look fun files => Settings.load files path

/-- The requirements which the settings name. -/
def loadRequirements (settings : Settings) : Session Requirements :=
  within "Failed to load feature requirements." <|
    look fun files => Requirements.load files settings.requirementsFile

/-- The store in a folder. -/
def loadStore (folder : String) : Session Store := do
  let store ← within "Failed to load store." (look fun files => Store.load files folder)
  record .debug s!"Loaded {store.fragmentCount} fragments from {folder}"
  return store

/-- The scenarios in a folder. -/
def loadScenarios (folder : String) : Session (List Scenario) :=
  within "Failed to load scenarios." (look fun files => Scenario.loadAll files folder)

/-- The store and the scenarios in a folder. -/
def loadAll (folder : String) : Session (Store × List Scenario) := do
  let store ← loadStore folder
  let scenarios ← loadScenarios folder
  record .info s!"Loaded store from {folder}"
  return (store, scenarios)

/-- The scenario with a name. -/
def findScenario (scenarios : List Scenario) (name : String) : Session Scenario :=
  match scenarios.find? (·.name == name) with
  | some scenario => return scenario
  | none => throw (.stated s!"Scenario {name} not found in store")

/-- Assembles a scenario and logs what is worth knowing. -/
def assembleLogged (store : Store) (scenario : Scenario) (requirements : Requirements) :
    Session (Except AssemblyError ResolvedScenario) := do
  let assembly := assemble store scenario requirements
  assembly.demotions.forM fun demotion => record .warn demotion.message
  if let .ok resolved := assembly.outcome then
    record .debug
      s!"Assembled scenario {resolved.name} ({resolved.temporal.subproblems.length} subproblems)"
    resolved.warnings.violations.forM fun warning =>
      record .warn (s!"Scenario {resolved.name}: " ++ warning.text)
  return assembly.outcome

/-- Prepares the folder for results and starts the log. -/
def prepareOutput (folder : String) (settings : Settings) (overwrite hasLogFiles : Bool) :
    Session Unit := do
  let replaced ← within ("Failed to create output folder: " ++ folder) <|
    onFiles (Results.prepareFolder folder (overwrite || settings.overwrite))
  within "Failed to initialise logging." <|
    startLog settings.logLevel (if hasLogFiles then some folder else none)
  record .info ("Output folder: " ++ folder)
  if replaced then record .warn "Output folder will be overwritten"

/-! ## Commands on stores -/

/-- Assembles a scenario and writes the results. -/
def resolve (settings : Settings) (store scenario : String) (options : OutputOptions) :
    Session Unit := do
  let folder ← match options.folder with
    | some folder => pure folder
    | none => look fun files => Results.defaultFolder files store scenario settings.resultsRoot
  prepareOutput folder settings options.overwrite true
  record .info ("Starting " ++ programName ++ " v" ++ version)
  let requirements ← loadRequirements settings
  let (loaded, scenarios) ← loadAll store
  let found ← findScenario scenarios scenario
  match ← assembleLogged loaded found requirements with
  | .error error => throw { cause := .assembly error }
  | .ok resolved =>
    let view := ScenarioView.ofScenario loaded found
    let provenance := (← get).environment.provenance
    onFiles (Results.writeAll provenance folder store resolved view)
    record .info s!"Scenario {scenario} resolved"

/-- Assembles a scenario, and says whether that failed. -/
def validateOne (store : Store) (requirements : Requirements) (scenario : Scenario) : Session Bool := do
  match ← assembleLogged store scenario requirements with
  | .ok _ =>
    record .info s!"Scenario {scenario.name} is valid"
    return false
  | .error error =>
    record .error error.message
    return true

/-- Assembles one scenario or all of them, and fails if that fails for any. -/
def validate (settings : Settings) (store : String) (scenario : Option String) : Session Unit := do
  within "Failed to initialise logging." (startLog settings.logLevel none)
  let requirements ← loadRequirements settings
  let (loaded, scenarios) ← loadAll store
  let chosen ← match scenario with
    | some name => do pure [← findScenario scenarios name]
    | none => pure scenarios
  let failed := ((← chosen.mapM (validateOne loaded requirements)).filter id).length
  if 0 < failed then
    throw (.stated s!"{failed} of {chosen.length} scenarios failed validation")
  record .info "Validation successful!"

/-- Prints which fragments a scenario selects. -/
def view (store scenario : String) : Session Unit := do
  let loaded ← loadStore store
  let scenarios ← loadScenarios store
  let found ← findScenario scenarios scenario
  print (ScenarioView.ofScenario loaded found).text

/-- The file with the drawing of the categories. -/
def graphFile : String := "category_dependencies.dot"

/-- A name with capital letters in the place of underscores. -/
def joinedName (name : String) : String := String.join ((Text.split '_' name).map String.capitalize)

/-- A category as it is shown in details. -/
def shownNode : Integrity.Node → String
  | .scenario category => "Scenario(" ++ joinedName category.name ++ ")"
  | .project category => "Project(" ++ joinedName category.name ++ ")"

/-- Draws the categories and what they depend on. -/
def saveGraph (settings : Settings) (options : OutputOptions) : Session Unit := do
  let folder := options.folder.getD settings.graphRoot
  prepareOutput folder settings options.overwrite false
  let order := ", ".intercalate (Integrity.checkOrder.map shownNode)
  record .debug ("Category check order: [" ++ order ++ "]")
  let graph := Integrity.Graph.ofReferences Integrity.crossReferences
  onFiles (FileAction.writeText (Files.join folder graphFile) graph.dot)
  record .info ("Graph saved to: " ++ folder)

/-! ## Bundled stores -/

/-- Prints the names of the bundled stores. -/
def exampleList : Session Unit := Bundled.catalog.forM fun store => print (store.name ++ "\n")

/-- Prints what a bundled store is about, and its scenarios. -/
def exampleInfo (name : String) : Session Unit := do
  let store ← look fun _ => Bundled.find name
  print (← look fun _ => store.readme)
  print "\nScenarios:\n"
  let names ← look fun _ => store.scenarioNames
  names.forM fun scenario => print ("  " ++ scenario ++ "\n")

/-- Writes a bundled store to a new folder. -/
def exampleExtract (name : String) (folder : Option String) : Session Unit := do
  let store ← look fun _ => Bundled.find name
  onFiles (store.extract (folder.getD name))

/-- Resolves a scenario of a bundled store, or validates all of its scenarios, given what is done
    with a store. -/
def exampleRun (name : String) (onStore : String → Session Unit) : Session Unit := do
  let store ← look fun _ => Bundled.find name
  withTemporaryFolder fun temporary => do
    let folder := Files.join temporary store.name
    onFiles (store.extract folder)
    onStore folder

/-- Resolves a scenario of a store, or validates all of its scenarios. -/
def resolveOrValidate (settings : Session Settings) (scenario : Option String)
    (options : OutputOptions) (store : String) : Session Unit := do
  let settings ← settings
  match scenario with
  | some scenario => resolve settings store scenario options
  | none => validate settings store none

/-! ## Settings -/

/-- Prints where the settings are. -/
def showSettingsPath : Session Unit := do print ((← settingsPath) ++ "\n")

/-- Prints the default settings. -/
def showDefaultSettings : Session Unit := print Settings.defaultText

/-- Prints the file of the settings, or the defaults if there is none. -/
def showSettings : Session Unit := do
  let path ← settingsPath
  if ← look fun files => .ok (files.isFile path) then
    let text ← within ("Could not read " ++ path) (onFiles (FileAction.ask (·.readText path)))
    print text
  else
    complain s!"No settings file found at {path}. Showing default settings."
    showDefaultSettings

end CapacityExpansion.Session
