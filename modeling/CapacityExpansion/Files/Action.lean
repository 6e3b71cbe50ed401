import CapacityExpansion.Failure

/-!
# Actions on files

An action looks at files and changes them, and may fail on the way; what has
been changed before a failure stays changed.
-/

namespace CapacityExpansion

/-- An action on files. -/
abbrev FileAction := ExceptT Failure (StateM Files)

namespace FileAction

variable {α : Type}

/-- What an attempt gives which looks at the files. -/
def look (attempt : Files → Attempt α) : FileAction α := fun files => (attempt files, files)

/-- What the files say. -/
def ask (query : Files → Except Files.Problem α) : FileAction α :=
  look fun files => Attempt.ofFiles (query files)

/-- A change of the files. -/
def change (f : Files → Except Files.Problem Files) : FileAction Unit := fun files =>
  match f files with
  | .ok changed => (.ok (), changed)
  | .error problem => (.error { cause := .files problem }, files)

/-- An action on the way to something else. -/
def within (context : String) (action : FileAction α) : FileAction α := fun files =>
  let (result, files) := action files
  (Attempt.within context result, files)

/-- Writes a text to a file. -/
def writeText (path text : String) : FileAction Unit := change (·.write path (.text text))

/-- What has an outcome of its own, and may change files before it fails. -/
def perform (f : Files → Files × Except Files.Problem Unit) : FileAction Unit := fun files =>
  let (files, result) := f files
  (Attempt.ofFiles result, files)

/-- Removes a folder with everything in it. -/
def removeFolder (path : String) : FileAction Unit := perform (·.removeFolder path)

/-- Creates a folder and all folders on the way to it. -/
def createFolders (path : String) : FileAction Unit := perform (·.createFolders path)

end FileAction

end CapacityExpansion
