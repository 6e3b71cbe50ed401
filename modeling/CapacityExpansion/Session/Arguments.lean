import CapacityExpansion.Session.Commands

/-!
# Arguments

What the arguments of the program ask for. The first one which is no option is
the command; options and values follow in any order, and after two dashes there
are values only. The arguments are read from the left, and the first which
decides the matter does: a call for help, for example, or an argument which
does not belong there.

* `Request.ofArguments`: what arguments ask for.
-/

namespace CapacityExpansion.Session

/-- What the program is asked to do. -/
inductive Request where
  /-- Resolve a scenario. -/
  | resolve (store scenario : String) (options : OutputOptions)
  /-- Validate a scenario, or all of them. -/
  | validate (store : String) (scenario : Option String)
  /-- Show a scenario. -/
  | view (store scenario : String)
  /-- Draw the categories. -/
  | saveGraph (options : OutputOptions)
  /-- List the bundled stores. -/
  | exampleList
  /-- Describe a bundled store. -/
  | exampleInfo (name : String)
  /-- Copy a bundled store. -/
  | exampleExtract (name : String) (folder : Option String)
  /-- Resolve or validate a bundled store. -/
  | exampleRun (name : String) (scenario : Option String) (options : OutputOptions)
  /-- Show where the settings are. -/
  | settingsPath
  /-- Show the settings. -/
  | settingsShow
  /-- Show the default settings. -/
  | settingsShowDefault
  /-- Show help. -/
  | help
  /-- Show the version. -/
  | version
  /-- Show help for a manual. -/
  | manual
  deriving DecidableEq, Repr

/-- Why reading the arguments ends early. -/
inductive Stop where
  /-- There is a call for help. -/
  | help
  /-- There is a call for the version. -/
  | version
  /-- The arguments make no sense. -/
  | misuse
  deriving DecidableEq, Repr

/-! ## Values and options -/

/-- What a value stands for. -/
inductive ValueKind where
  /-- A path, which is not empty. -/
  | path
  /-- Any text. -/
  | text
  deriving DecidableEq, Repr

/-- What may follow a command. -/
structure Shape where
  /-- What its values stand for. -/
  values : List ValueKind := []
  /-- How many values there must be. -/
  needed : Nat := 0
  /-- Whether it has options for the output. -/
  hasOutput : Bool := false

/-- What has been read. -/
structure Given where
  /-- The values. -/
  values : List String := []
  /-- The options. -/
  options : OutputOptions := {}
  deriving DecidableEq, Repr

namespace Shape

variable (shape : Shape)

/-- What is given with one more value. -/
def addValue (given : Given) (value : String) : Except Stop Given :=
  match shape.values.drop given.values.length with
  | [] => .error .misuse
  | kind :: _ =>
    if kind = .path && value.isEmpty then .error .misuse
    else .ok { given with values := given.values ++ [value] }

/-- What is given with the folder for the output. -/
def setFolder (given : Given) (folder : String) : Except Stop Given :=
  if given.options.folder.isSome || folder.isEmpty then .error .misuse
  else .ok { given with options := { given.options with folder := some folder } }

/-- What is given with leave to overwrite the output. -/
def setOverwrite (given : Given) : Except Stop Given :=
  if given.options.overwrite then .error .misuse
  else .ok { given with options := { given.options with overwrite := true } }

/-- What one argument does. -/
inductive Step where
  /-- It is done with. -/
  | done (given : Given)
  /-- The next argument is the folder for the output. -/
  | folderNext

/-- What an option written with two dashes does. -/
def longOption (given : Given) (name : String) (value : Option String) : Except Stop Step :=
  match name, value with
  | "help", none => .error .help
  | "overwrite", none => if shape.hasOutput then Step.done <$> setOverwrite given else .error .misuse
  | "output-dir", none => if shape.hasOutput then .ok .folderNext else .error .misuse
  | "output-dir", some folder =>
    if shape.hasOutput then Step.done <$> setFolder given folder else .error .misuse
  | _, _ => .error .misuse

/-- What an option written with one dash does, given the characters after the dash. -/
def shortOption (given : Given) : List Char → Except Stop Step
  | 'h' :: _ => .error .help
  | 'o' :: rest =>
    if !shape.hasOutput then .error .misuse
    else match rest with
      | [] => .ok .folderNext
      | '=' :: folder => Step.done <$> setFolder given (String.ofList folder)
      | folder => Step.done <$> setFolder given (String.ofList folder)
  | _ => .error .misuse

/-- The name of an option and the value after its sign of equality. -/
def splitValue (option : List Char) : String × Option String :=
  let name := String.ofList (option.takeWhile (· != '='))
  match option.dropWhile (· != '=') with
  | [] => (name, none)
  | _ :: value => (name, some (String.ofList value))

/-- What an argument does. -/
def step (given : Given) (argument : String) : Except Stop Step :=
  match argument.toList with
  | '-' :: '-' :: option =>
    let (name, value) := splitValue option
    shape.longOption given name value
  | '-' :: c :: rest => shape.shortOption given (c :: rest)
  | _ => Step.done <$> shape.addValue given argument

/-- Whether an argument can be the value of the option before it. -/
def isValue (argument : String) : Bool := argument == "-" || argument.toList.head? != some '-'

/-- What is given by arguments; `awaiting` says whether the next one is the folder for the
    output. -/
def read (awaiting : Bool) (given : Given) : List String → Except Stop Given
  | [] => if awaiting then .error .misuse else .ok given
  | argument :: rest =>
    if awaiting then
      if isValue argument then do read false (← setFolder given argument) rest else .error .misuse
    else if argument = "--" then rest.foldlM shape.addValue given
    else do
      match ← shape.step given argument with
      | .done given => read false given rest
      | .folderNext => read true given rest

/-- What is given by the arguments of a command, if all that is needed is there. -/
def readAll (arguments : List String) : Except Stop Given := do
  let given ← shape.read false {} arguments
  if given.values.length < shape.needed then throw .misuse
  return given

end Shape

/-! ## Commands -/

/-- A command: what may follow it, and what it then asks for. -/
structure CommandSpec where
  /-- Its name. -/
  name : String
  /-- What may follow. -/
  shape : Shape := {}
  /-- What is asked for. -/
  request : Given → Request

/-- A value which must have been given. -/
def Given.value (given : Given) (index : Nat) : String := given.values.getD index ""

/-- The commands on stores. -/
def storeCommands : List CommandSpec := [
  { name := "resolve"
    shape := { values := [.path, .text], needed := 2, hasOutput := true }
    request := fun given => .resolve (given.value 0) (given.value 1) given.options },
  { name := "validate"
    shape := { values := [.path, .text], needed := 1 }
    request := fun given => .validate (given.value 0) given.values[1]? },
  { name := "view"
    shape := { values := [.path, .text], needed := 2 }
    request := fun given => .view (given.value 0) (given.value 1) },
  { name := "save-graph"
    shape := { hasOutput := true }
    request := fun given => .saveGraph given.options }]

/-- The commands on bundled stores. -/
def exampleCommands : List CommandSpec := [
  { name := "list", request := fun _ => .exampleList },
  { name := "info"
    shape := { values := [.text], needed := 1 }
    request := fun given => .exampleInfo (given.value 0) },
  { name := "extract"
    shape := { values := [.text, .path], needed := 1 }
    request := fun given => .exampleExtract (given.value 0) given.values[1]? },
  { name := "run"
    shape := { values := [.text, .text], needed := 1, hasOutput := true }
    request := fun given => .exampleRun (given.value 0) given.values[1]? given.options }]

/-- The commands on settings. -/
def settingsCommands : List CommandSpec := [
  { name := "path", request := fun _ => .settingsPath },
  { name := "show", request := fun _ => .settingsShow },
  { name := "show-default", request := fun _ => .settingsShowDefault }]

/-- The groups of commands. -/
def commandGroups : List (String × List CommandSpec) :=
  [("example", exampleCommands), ("settings", settingsCommands)]

/-- Whether there is help on a path of commands. -/
def hasHelp : List String → Bool
  | [] => true
  | ["help"] => true
  | [name] => storeCommands.any (·.name == name) || commandGroups.any (·.1 == name)
  | [group, name] =>
    match commandGroups.find? (·.1 == group) with
    | some (_, commands) => name == "help" || commands.any (·.name == name)
    | none => false
  | _ => false

/-- What is asked for by a command and what follows it. -/
def CommandSpec.readAll (command : CommandSpec) (arguments : List String) : Except Stop Request :=
  command.request <$> command.shape.readAll arguments

/-- A call for help on a path of commands. -/
def helpOn (path : List String) : Except Stop Request :=
  if hasHelp path then .error .help else .error .misuse

/-- What is asked for by the arguments after the name of a group. -/
def readGroup (group : String) (commands : List CommandSpec) : List String → Except Stop Request
  | [] => .error .misuse
  | argument :: rest =>
    match argument.toList with
    | '-' :: 'h' :: _ => .error .help
    | _ =>
      if argument = "--help" then .error .help
      else if argument = "help" then helpOn (group :: rest)
      else match commands.find? (·.name == argument) with
        | some command => command.readAll rest
        | none => .error .misuse

/-- What is asked for by the name of a command and what follows it. -/
def readCommand (name : String) (arguments : List String) : Except Stop Request :=
  if name = "help" then helpOn arguments
  else match storeCommands.find? (·.name == name) with
    | some command => command.readAll arguments
    | none => match commandGroups.find? (·.1 == name) with
      | some (group, commands) => readGroup group commands arguments
      | none => .error .misuse

/-- What is asked for if there is no command; `manual` says whether a manual has been asked
    for. -/
def nothingMore (manual : Bool) : Request := if manual then .manual else .help

/-- What is asked for by the arguments of the program; `manual` says whether a manual has been
    asked for. -/
def readArguments (manual : Bool) : List String → Except Stop Request
  | [] => .ok (nothingMore manual)
  | argument :: rest =>
    match argument.toList with
    | ['-', '-'] => if rest.isEmpty then .ok (nothingMore manual) else .error .misuse
    | '-' :: '-' :: _ =>
      if argument = "--help" then .error .help
      else if argument = "--version" then .error .version
      else if argument = "--markdown-help" && !manual then readArguments true rest
      else .error .misuse
    | '-' :: 'h' :: _ => .error .help
    | '-' :: 'V' :: _ => .error .version
    | '-' :: _ => .error .misuse
    | _ => do
      let request ← readCommand argument rest
      return if manual then .manual else request

/-- What arguments ask for, or nothing if they make no sense. -/
def Request.ofArguments (arguments : List String) : Option Request :=
  match readArguments false arguments with
  | .ok request => some request
  | .error .help => some .help
  | .error .version => some .version
  | .error .misuse => none

end CapacityExpansion.Session
