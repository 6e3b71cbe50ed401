import CapacityExpansion.Files.Action
import CapacityExpansion.Results.Metadata
import CapacityExpansion.Session.Log
import CapacityExpansion.Settings

/-!
# Sessions

A run of the program is a session: it works on files, prints, and keeps a log.
A session may fail; what it has done up to then is done.
-/

namespace CapacityExpansion

/-- What the program finds when it starts. -/
structure Environment where
  /-- The configuration folder of the program. -/
  configFolder : String
  /-- A folder for what is only needed during the session, which does not exist yet. -/
  temporaryFolder : String
  /-- Whether the settings of the user are ignored. -/
  ignoresSettings : Bool := false
  /-- The log level which overrides that of the settings. -/
  logLevel : Option String := none
  /-- What goes into the metadata. -/
  provenance : Results.Provenance

/-- What a session works on. -/
structure World where
  /-- The files. -/
  files : Files
  /-- What the program found when it started. -/
  environment : Environment
  /-- The state of the log. -/
  logger : Logger := .idle
  /-- The log, the latest entry last. -/
  log : List Entry := []
  /-- What has been printed. -/
  output : String := ""
  /-- What has been printed about problems, before there was a log. -/
  complaints : String := ""

/-- What is done in a session. -/
abbrev Session := ExceptT Failure (StateM World)

namespace Session

variable {α : Type}

/-- An action on the files. -/
def onFiles (action : FileAction α) : Session α := fun world =>
  let (result, files) := action world.files
  (result, { world with files })

/-- What an attempt gives which looks at the files. -/
def look (attempt : Files → Attempt α) : Session α := onFiles (FileAction.look attempt)

/-- What is done on the way to something else. -/
def within (context : String) (session : Session α) : Session α := fun world =>
  let (result, world) := session world
  (Attempt.within context result, world)

/-- An entry of the log. -/
def record (level : Level) (message : String) : Session Unit :=
  modify fun world =>
    if world.logger.shows level then { world with log := world.log ++ [⟨level, message⟩] } else world

/-- Prints a text. -/
def print (text : String) : Session Unit :=
  modify fun world => { world with output := world.output ++ text }

/-- Prints a line about a problem. -/
def complain (line : String) : Session Unit :=
  modify fun world => { world with complaints := world.complaints ++ line ++ "\n" }

/-- What is done with a folder which exists as long as it is needed. -/
def withTemporaryFolder (session : String → Session α) : Session α := do
  let folder := (← get).environment.temporaryFolder
  within "Failed to create temporary directory" (onFiles (FileAction.change (·.createFolder folder)))
  fun world =>
    let (result, world) := session folder world
    (result, { world with files := (world.files.removeFolder folder).1 })

/-- Creates a log file. -/
def createLogFile (folder name : String) : Session Unit :=
  onFiles (FileAction.writeText (Files.join folder name) "")

/-- Starts the log at a level, with log files in a folder if one is given; a log which has been
    started stays as it is. -/
def startLog (level : String) (folder : Option String) : Session Unit := do
  let world ← get
  if world.logger.isStarted then return
  set { world with logger := .broken }
  let level := world.environment.logLevel.getD level
  match Filter.ofText? level with
  | none => throw (.stated ("Unknown log level: " ++ (Text.trim level).toLower))
  | some filter =>
    if let some folder := folder then
      createLogFile folder infoFile
      createLogFile folder errorFile
    modify fun world => { world with logger := .running filter folder }

/-- A log which has been started stays as it is. -/
theorem startLog_of_isStarted {world : World} (h : world.logger.isStarted) (level : String)
    (folder : Option String) : startLog level folder world = (.ok (), world) := by
  change (if world.logger.isStarted then pure () else _ : Session Unit) world = _
  rw [if_pos h]
  rfl

end Session

/-- The log files and their entries. -/
def World.logFiles (world : World) : List (String × List Entry) :=
  match world.logger.folder? with
  | none => []
  | some folder => [(Files.join folder infoFile, world.log.filter fun entry => !entry.isProblem),
      (Files.join folder errorFile, world.log.filter Entry.isProblem)]

end CapacityExpansion
