import CapacityExpansion.Assembly.Resolved
import CapacityExpansion.Csv.Columns
import CapacityExpansion.Files.Access
import CapacityExpansion.Text.Split
import CapacityExpansion.Toml.Reading

/-!
# Failures

Why an operation on files of the model failed: the cause, and what was being
done, told from the outside in.
-/

namespace CapacityExpansion

/-- What went wrong in the end. -/
inductive Cause where
  /-- What the message says. -/
  | stated (message : String)
  /-- A file could not be used. -/
  | files (problem : Files.Problem)
  /-- A table could not be read. -/
  | table (problem : Csv.Problem)
  /-- A document could not be read. -/
  | document (problem : Toml.Problem)
  /-- A scenario could not be assembled. -/
  | assembly (error : AssemblyError)
  deriving DecidableEq, Repr

/-- The message of a cause. -/
def Cause.message : Cause → String
  | .stated message => message
  | .files problem => problem.message
  | .table problem => problem.message
  | .document problem => problem.message
  | .assembly error => error.message

/-- A failure. -/
structure Failure where
  /-- What was being done, the outermost first. -/
  contexts : List String := []
  /-- The cause. -/
  cause : Cause
  deriving DecidableEq, Repr

namespace Failure

/-- The failure with a message. -/
def stated (message : String) : Failure := { cause := .stated message }

/-- The failure with messages from the outermost on. -/
def ofMessages (messages : List String) : Failure where
  contexts := messages.dropLast
  cause := .stated (messages.getLast?.getD "")

/-- All messages, the outermost first. -/
def messages (f : Failure) : List String := f.contexts ++ [f.cause.message]

/-- The failure of something done on the way to something else. -/
def within (context : String) (f : Failure) : Failure := { f with contexts := context :: f.contexts }

/-- Lines below each other, the ones after the first indented. -/
def indented (width : Nat) (text : String) : String :=
  ("\n" ++ String.ofList (List.replicate width ' ')).intercalate (Text.split '\n' text)

/-- A cause in a report, numbered if there are several. -/
def causeText (numbered : Bool) (cause : String) (index : Nat) : String :=
  if numbered then
    let number := toString index
    String.ofList (List.replicate (5 - number.length) ' ') ++ number ++ ": " ++ indented 7 cause
  else "    " ++ indented 4 cause

/-- The report on a failure: its message, and then the causes, the outermost first. -/
def report (f : Failure) : String :=
  match f.messages with
  | [] => ""
  | [message] => message
  | message :: causes =>
    let numbered := decide (1 < causes.length)
    message ++ "\n\nCaused by:" ++
      String.join (causes.zipIdx.map fun (cause, i) => "\n" ++ causeText numbered cause i)

/-- What is done when a file is read. -/
def reading (path : String) : String := "Error reading " ++ path

end Failure

/-- What is attempted: a result, or a failure. -/
abbrev Attempt (α : Type) := Except Failure α

namespace Attempt

variable {α : Type}

/-- What is attempted on the way to something else. -/
def within (context : String) (attempt : Attempt α) : Attempt α :=
  attempt.mapError (Failure.within context)

/-- What is attempted with files. -/
def ofFiles (result : Except Files.Problem α) : Attempt α :=
  result.mapError fun problem => { cause := .files problem }

/-- What is attempted with a table. -/
def ofTable (result : Except Csv.Problem α) : Attempt α :=
  result.mapError fun problem => { cause := .table problem }

/-- What is attempted with a document. -/
def ofDocument (result : Except Toml.Problem α) : Attempt α :=
  result.mapError fun problem => { cause := .document problem }

end Attempt

end CapacityExpansion
