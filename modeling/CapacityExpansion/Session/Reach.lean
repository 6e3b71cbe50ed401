import CapacityExpansion.Session.Arguments

/-!
# What a session looks at

A session only looks at a few folders: that of the settings, that of the store
and the one which the output goes to. Which ones these are follows from what is
asked for and from the settings, so they can be told before the session starts.

* `Request.store?`: the folder of the store;
* `Request.output?`: the folder which the output goes to.
-/

namespace CapacityExpansion.Session

/-- The settings as far as they can be told, even if something they name is missing. -/
def foreseenSettings (files : Files) (environment : Environment) : Settings :=
  if environment.ignoresSettings then {}
  else
    let path := Files.join environment.configFolder Settings.fileName
    match files.readText path with
    | .ok text => (Toml.readText Settings.format.ofTable text).toOption.getD {}
    | .error _ => {}

namespace Request

/-- The folder of the store. -/
def store? : Request → Option String
  | resolve store _ _ | validate store _ | view store _ => some store
  | _ => none

/-- The folder which the output goes to. -/
def output? (files : Files) (settings : Settings) : Request → Option String
  | resolve store scenario options =>
    options.folder <|>
      (Results.defaultFolder files store scenario settings.resultsRoot).toOption
  | exampleRun name (some scenario) options =>
    options.folder.getD (Files.join (Files.join settings.resultsRoot name) scenario)
  | saveGraph options => options.folder.getD settings.graphRoot
  | exampleExtract name folder => folder.getD name
  | _ => none

end Request

end CapacityExpansion.Session
