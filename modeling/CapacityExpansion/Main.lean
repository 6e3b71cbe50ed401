import CapacityExpansion.Session.Program
import CapacityExpansion.Session.Reach
import Std.Time

/-!
# The command line

Runs a session on the files of the machine. The session itself is a function of
the files it looks at: these are read first, and what the session has changed is
written afterwards.

* `runMachine`: runs the program with arguments;
* `main`: the program.
-/

namespace CapacityExpansion.CommandLine

/-! ## Reading -/

/-- The path of a place. -/
def pathOf (place : Files.Place) : String := "/" ++ "/".intercalate place

/-- A tree with what there is at a place of the machine; what cannot be read is left out. -/
def readNode (tree : Files.Tree) (place : Files.Place) : IO Files.Tree := do
  let path := (← IO.currentDir) / pathOf place
  if (tree.node? place).isSome then return tree
  if ← path.isDir then return tree.put place .folder
  if !(← path.pathExists) then return tree
  try
    let bytes ← IO.FS.readBinFile path
    return tree.put place (.file (.ofBytes bytes.toList))
  catch _ => return tree

/-- A tree with what there is in a folder of the machine. -/
def readFolder (tree : Files.Tree) (place : Files.Place) : IO Files.Tree := do
  let path := (← IO.currentDir) / pathOf place
  if !(← path.isDir) then return tree
  (← path.readDir).foldlM (fun tree entry => readNode tree (place ++ [entry.fileName])) tree

/-- The files with what there is on the way to a path, and its place. -/
def readWay (files : Files) (path : String) : IO (Files × Files.Place) := do
  let path := Files.Path.ofText path
  path.components.foldlM (fun (files, place) name => do
    let place := if name = ".." then place.dropLast else place ++ [name]
    return ({ files with tree := ← readNode files.tree place }, place)) (files, files.start path)

/-- The files with what there is on the way to a path, and in the folder it names. -/
def readPath (files : Files) (path : String) : IO Files := do
  let (files, place) ← readWay files path
  return { files with tree := ← readFolder files.tree place }

/-- The current folder of the machine, without what is in it. -/
def readCurrent : IO Files := do
  let current := (Files.Path.ofText (← IO.currentDir).toString).components
  return { tree := Files.Tree.putFolders {} current, current }

/-! ## Writing -/

/-- Removes what is at a place of the machine. -/
def removeAt (place : Files.Place) : IO Unit := do
  let path := (← IO.currentDir) / pathOf place
  if ← path.isDir then IO.FS.removeDirAll path
  else if ← path.pathExists then IO.FS.removeFile path

/-- Writes a file or folder of the machine. -/
def writeAt (place : Files.Place) : Files.Node → IO Unit
  | .folder => IO.FS.createDirAll (pathOf place)
  | .file (.text text) => IO.FS.writeFile (pathOf place) text
  | .file (.binary bytes) => IO.FS.writeBinFile (pathOf place) ⟨bytes.toArray⟩

/-- Writes what differs between two trees to the machine. -/
def writeChanges (before after : Files.Tree) : IO Unit := do
  for (place, _) in before.nodes.entries do
    if (after.node? place).isNone then removeAt place
  for (place, node) in after.nodes.entries do
    if before.node? place != some node then writeAt place node

/-! ## The machine -/

/-- The folder of the user's configurations. -/
def configRoot : IO String := do
  if let some folder ← IO.getEnv "XDG_CONFIG_HOME" then
    if Files.isAbsolute folder then return folder
  return Files.join ((← IO.getEnv "HOME").getD "") ".config"

/-- What the machine says about itself. -/
def readFact (name : String) : IO String :=
  try return Text.trim (← IO.FS.readFile ("/proc/sys/kernel/" ++ name))
  catch _ => return "unknown"

/-- What goes into the metadata. -/
def readProvenance : IO Results.Provenance := do
  let facts := [("sysname", "ostype"), ("nodename", "hostname"), ("release", "osrelease"),
    ("machine", "arch")]
  return {
    time := Std.Time.DateTime.toRFC822String (← Std.Time.DateTime.now)
    build := [("name", .string programName), ("version", .string version)]
    platform := ← facts.mapM fun (key, fact) => return (key, .string (← readFact fact)) }

/-- What the program finds when it starts. -/
def readEnvironment : IO Environment := do
  let temporaryRoot := (← IO.getEnv "TMPDIR").getD "/tmp"
  return {
    configFolder := Files.join (← configRoot) programName
    temporaryFolder := Files.join temporaryRoot (".tmp" ++ toString (← IO.monoNanosNow))
    ignoresSettings := (← IO.getEnv "SCENARIO_ASSEMBLY_USE_DEFAULT_SETTINGS").isSome
    logLevel := ← IO.getEnv "SCENARIO_ASSEMBLY_LOG_LEVEL"
    provenance := ← readProvenance }

/-- The world in which a request is dealt with: all files it looks at have been read. -/
def readWorld (request : Option Session.Request) : IO World := do
  let environment ← readEnvironment
  let mut files ← readPath (← readCurrent) environment.configFolder
  files := (← readWay files environment.temporaryFolder).1
  let settings := Session.foreseenSettings files environment
  if let some path := settings.requirementsFile then files ← readPath files path
  if let some path := request.bind (·.store?) then files ← readPath files path
  if let some path := request.bind (·.output? files settings) then files ← readPath files path
  return { files, environment }

/-! ## The program -/

/-- The files of a world after its session, with the log files. -/
def filesWithLogs (world : World) (time : String) : Files :=
  world.logFiles.foldl (fun files (path, entries) =>
    let text := String.join (entries.map fun entry => entry.line time ++ "\n")
    (files.write path (.text text)).toOption.getD files) world.files

/-- Runs the program with arguments; the result is the exit code. -/
def runMachine (arguments : List String) : IO UInt32 := do
  let before ← readWorld (Session.Request.ofArguments arguments)
  let (code, world) := Session.run arguments before
  let time := Std.Time.PlainTime.toTime24Hour (← Std.Time.DateTime.now).time
  writeChanges before.files.tree (filesWithLogs world time).tree
  IO.print world.output
  IO.eprint world.complaints
  for entry in world.log do
    IO.eprintln (entry.line time)
  return code.toUInt32

end CapacityExpansion.CommandLine

/-- Assembles scenarios of capacity-expansion models. -/
def main (arguments : List String) : IO UInt32 :=
  CapacityExpansion.CommandLine.runMachine arguments
