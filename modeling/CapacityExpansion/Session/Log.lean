import CapacityExpansion.Text.Blank

/-!
# The log

What happens is logged at a level; a filter says which levels are shown. The
log starts once the settings are known and the folder for the results is there,
so nothing that happens before is in it.

* `Filter.ofText?`: the filter with a name;
* `Logger.shows`: whether an entry is shown.
-/

namespace CapacityExpansion

/-- How important an entry of the log is. -/
inductive Level where
  /-- Something failed. -/
  | error
  /-- Something may not be as intended. -/
  | warn
  /-- What is being done. -/
  | info
  /-- Details. -/
  | debug
  /-- Details of details. -/
  | trace
  deriving DecidableEq, Repr

namespace Level

/-- All levels, the most important first. -/
def all : List Level := [.error, .warn, .info, .debug, .trace]

/-- The name of a level. -/
def name : Level → String
  | .error => "ERROR"
  | .warn => "WARN"
  | .info => "INFO"
  | .debug => "DEBUG"
  | .trace => "TRACE"

/-- The position of a level. -/
def position (level : Level) : Nat := all.idxOf level

end Level

/-- Which entries are shown: those up to a level, or none. -/
abbrev Filter := Option Level

namespace Filter

/-- Whether a filter lets a level through. -/
def admits (filter : Filter) (level : Level) : Bool :=
  filter.any fun least => level.position ≤ least.position

/-- What is more important than something shown is shown as well. -/
theorem admits_of_position_le {filter : Filter} {level other : Level} (h : filter.admits level)
    (hl : other.position ≤ level.position) : filter.admits other := by
  cases filter with
  | none => cases h
  | some least => exact decide_eq_true (Nat.le_trans hl (of_decide_eq_true h))

/-- The filter with a name, in any case of letters. -/
def ofText? (text : String) : Option Filter :=
  let name := (Text.trim text).toLower
  if name = "off" then some none
  else ((Level.all.find? fun level => level.name.toLower == name)).map some

end Filter

/-- An entry of the log. -/
structure Entry where
  /-- Its level. -/
  level : Level
  /-- What happened. -/
  message : String
  deriving DecidableEq, Repr

/-- The line of an entry at some time. -/
def Entry.line (entry : Entry) (time : String) : String :=
  "[" ++ time ++ " " ++ entry.level.name ++ " scenario_assembly] " ++ entry.message

/-- The state of the log. -/
inductive Logger where
  /-- It has not been started. -/
  | idle
  /-- It could not be started, and will not be. -/
  | broken
  /-- It runs. -/
  | running (filter : Filter) (folder : Option String)
  deriving DecidableEq, Repr

namespace Logger

/-- Whether an attempt has been made to start the log. -/
def isStarted : Logger → Bool
  | .idle => false
  | _ => true

/-- Whether entries of a level are shown. -/
def shows (logger : Logger) (level : Level) : Bool :=
  match logger with
  | .running filter _ => filter.admits level
  | _ => false

/-- The folder of the log files, if there are any. -/
def folder? : Logger → Option String
  | .running _ folder => folder
  | _ => none

end Logger

/-- The log file for what is done. -/
def infoFile : String := "assembly_info.log"

/-- The log file for what went wrong. -/
def errorFile : String := "assembly_error.log"

/-- Whether an entry goes to the log file for what went wrong. -/
def Entry.isProblem (entry : Entry) : Bool := entry.level = .error || entry.level = .warn

end CapacityExpansion
