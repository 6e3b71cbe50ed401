import CapacityExpansion.Session.Arguments

/-!
# The program

A run of the program: the arguments say what to do, and a failure is reported in
the log, or on its own if there is no log yet. The exit code is zero if all went
well, two if the arguments make no sense, and one else.

* `run`: the exit code, and the world afterwards.
-/

namespace CapacityExpansion.Session

/-- What the program does, in a few lines. -/
def helpText : String :=
  "The command line interface for assembling scenarios.\n\n" ++
    "Usage: " ++ programName ++ " [COMMAND]\n\n" ++
    "Commands:\n" ++
    "  resolve     Assemble a scenario and write the resolved configuration to file\n" ++
    "  validate    Check that a scenario (or every scenario in a store) can be assembled\n" ++
    "  view        Show which fragment a scenario selects in each category\n" ++
    "  save-graph  Save the category dependency graph in DOT format\n" ++
    "  example     Manage example stores\n" ++
    "  settings    Manage settings file\n" ++
    "  help        Print this message or the help of the given subcommand(s)\n\n" ++
    "Options:\n" ++
    "  -h, --help     Print help\n" ++
    "  -V, --version  Print version\n"

/-- The message about arguments which make no sense. -/
def usageText : String := "error: invalid arguments\n\nUsage: " ++ programName ++ " [COMMAND]"

/-- Does what is asked for. -/
def perform : Request → Session Unit
  | .resolve store scenario options => do resolve (← loadSettings) store scenario options
  | .validate store scenario => do validate (← loadSettings) store scenario
  | .view store scenario => view store scenario
  | .saveGraph options => do saveGraph (← loadSettings) options
  | .exampleList => exampleList
  | .exampleInfo name => exampleInfo name
  | .exampleExtract name folder => exampleExtract name folder
  | .exampleRun name scenario options =>
    exampleRun name (resolveOrValidate loadSettings scenario options)
  | .settingsPath => showSettingsPath
  | .settingsShow => showSettings
  | .settingsShowDefault => showDefaultSettings
  | .help => print helpText
  | .version => print (programName ++ " " ++ version ++ "\n")
  | .manual => print ("# Command-Line Help for \x60" ++ programName ++ "\x60\n\n" ++ helpText)

/-- Reports a failure. -/
def reportFailure (failure : Failure) : Session Unit := do
  if (← get).logger.isStarted then record .error failure.report
  else complain ("Error: " ++ failure.report)

/-- Does what is asked for and reports a failure; the result is the exit code. -/
def performReported (request : Request) (world : World) : Nat × World :=
  match perform request world with
  | (.ok (), world) => (0, world)
  | (.error failure, world) => (1, (reportFailure failure world).2)

/-- Runs the program; the result is the exit code. -/
def run (arguments : List String) (world : World) : Nat × World :=
  match Request.ofArguments arguments with
  | some request => performReported request world
  | none => (2, (complain usageText world).2)

end CapacityExpansion.Session
