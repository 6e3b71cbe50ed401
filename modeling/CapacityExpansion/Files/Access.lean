import CapacityExpansion.Files.Path
import CapacityExpansion.Files.Tree

/-!
# Working with files

What the program does with files and folders, and how it can fail. Paths are
taken from a current folder; on the way to what a path names, everything must be
a folder. Names and paths have a limited length in bytes.

* `Files.locate`: the place a path names;
* `Files.readText`, `Files.write`, `Files.createFolders`, `Files.removeFolder`:
  the operations.
-/

namespace CapacityExpansion

namespace Files

/-- Why an operation on files failed. -/
inductive Problem where
  /-- There is nothing at the place. -/
  | notFound
  /-- There is something at the place already. -/
  | alreadyExists
  /-- Something on the way is no folder. -/
  | notAFolder
  /-- A folder is no file. -/
  | isAFolder
  /-- A name or the path is too long. -/
  | nameTooLong
  /-- The path has a null character in it. -/
  | nullCharacter
  /-- The path cannot be used like this. -/
  | invalidArgument
  /-- There is something in the folder. -/
  | notEmpty
  /-- Only a file can be copied. -/
  | notAFile
  /-- The contents are no text. -/
  | notText
  deriving DecidableEq, Repr

/-- The kind of a problem. -/
def Problem.kind : Problem → String
  | .notFound => "NotFound"
  | .alreadyExists => "AlreadyExists"
  | .notAFolder => "NotADirectory"
  | .isAFolder => "IsADirectory"
  | .nameTooLong => "InvalidFilename"
  | .nullCharacter => "InvalidInput"
  | .invalidArgument => "InvalidInput"
  | .notEmpty => "DirectoryNotEmpty"
  | .notAFile => "InvalidInput"
  | .notText => "InvalidData"

/-- The message of a problem. -/
def Problem.message : Problem → String
  | .notFound => "No such file or directory (os error 2)"
  | .alreadyExists => "File exists (os error 17)"
  | .notAFolder => "Not a directory (os error 20)"
  | .isAFolder => "Is a directory (os error 21)"
  | .nameTooLong => "File name too long (os error 36)"
  | .nullCharacter => "file name contained an unexpected NUL byte"
  | .invalidArgument => "Invalid argument (os error 22)"
  | .notEmpty => "Directory not empty (os error 39)"
  | .notAFile => "the source path is neither a regular file nor a symlink to a regular file"
  | .notText => "stream did not contain valid UTF-8"

end Files

/-- Files and folders, seen from a current folder. -/
structure Files where
  /-- The files and folders. -/
  tree : Files.Tree := {}
  /-- The current folder. -/
  current : Files.Place := []

namespace Files

variable (f : Files)

/-- The number of bytes a name may have. -/
def nameLimit : Nat := 255

/-- The number of bytes a path does not reach. -/
def pathLimit : Nat := 4096

/-- The place which a piece of a path leads to. -/
def enter (place : Place) (piece : String) : Except Problem Place :=
  if piece = "." then .ok place
  else if piece = ".." then .ok place.dropLast
  else if piece.utf8ByteSize ≤ nameLimit then .ok (place ++ [piece])
  else .error .nameTooLong

/-- The place which the pieces of a path lead to; the last one may name nothing. -/
def walk (tree : Tree) : Place → List String → Except Problem Place
  | place, [] => .ok place
  | place, [piece] => enter place piece
  | place, piece :: rest => do
    let next ← enter place piece
    match tree.node? next with
    | some .folder => walk tree next rest
    | some (.file _) => throw .notAFolder
    | none => throw .notFound

/-- The place at which the pieces of a path start. -/
def start (path : Path) : Place := if path.absolute then [] else f.current

/-- The place which some pieces of a path lead to, if the path may be used. -/
def follow (path : String) (pieces : List String) : Except Problem Place :=
  if path.isEmpty then .error .notFound
  else if '\x00' ∈ path.toList then .error .nullCharacter
  else if pathLimit ≤ path.utf8ByteSize then .error .nameTooLong
  else walk f.tree (f.start (.ofText path)) pieces

/-- The place a path names, whether or not there is something. -/
def locate (path : String) : Except Problem Place := f.follow path (Path.ofText path).pieces

/-- What a path names and its place. -/
def find (path : String) : Except Problem (Place × Node) := do
  let place ← f.locate path
  match f.tree.node? place with
  | none => throw .notFound
  | some .folder => return (place, .folder)
  | some node => if (Path.ofText path).endsInSlash then throw .notAFolder else return (place, node)

/-- Whether a path names something. -/
def doesExist (path : String) : Bool := (f.find path).toOption.isSome

/-- Whether a path names a folder. -/
def isFolder (path : String) : Bool :=
  match f.find path with
  | .ok (_, .folder) => true
  | _ => false

/-- Whether a path names a file. -/
def isFile (path : String) : Bool :=
  match f.find path with
  | .ok (_, .file _) => true
  | _ => false

/-- The contents of a file. -/
def read (path : String) : Except Problem Content := do
  match ← f.find path with
  | (_, .file content) => return content
  | (_, .folder) => throw .isAFolder

/-- The text of a file. -/
def readText (path : String) : Except Problem String := do
  match ← f.read path with
  | .text text => return text
  | .binary _ => throw .notText

/-- The files with the contents of one written. A path which ends in a slash is never that of a
    file, whatever the name before it. -/
def write (path : String) (content : Content) : Except Problem Files := do
  if (Path.ofText path).endsInSlash then
    let _ ← f.follow path (Path.ofText path).way
    throw .isAFolder
  let place ← f.locate path
  if f.tree.node? place == some .folder then throw .isAFolder
  match f.tree.node? place.dropLast with
  | some .folder => return { f with tree := f.tree.put place (.file content) }
  | some (.file _) => throw .notAFolder
  | none => throw .notFound

/-- The names of what is in a folder. -/
def list (path : String) : Except Problem (List String) := do
  match ← f.find path with
  | (place, .folder) => return f.tree.children place
  | (_, .file _) => throw .notAFolder

/-- The files with one copied. -/
def copy (source target : String) : Except Problem Files := do
  match ← f.find source with
  | (_, .file content) => f.write target content
  | (_, .folder) => throw .notAFile

/-- The files with a new folder at a place. -/
def createAt (place : Place) : Except Problem Files :=
  match f.tree.node? place with
  | some _ => .error .alreadyExists
  | none => match f.tree.node? place.dropLast with
    | some .folder => .ok { f with tree := f.tree.put place .folder }
    | some (.file _) => .error .notAFolder
    | none => .error .notFound

/-- The files with a new folder. -/
def createFolder (path : String) : Except Problem Files := do f.createAt (← f.locate path)

/-- The files in which a path names a folder: the same ones if it does already. -/
def ensureFolder (path : String) : Except Problem Files :=
  match f.createFolder path with
  | .error problem => if f.isFolder path then .ok f else .error problem
  | created => created

/-- The outcome of making sure that the first path names a folder, the other ones being those of
    the folders on the way to it, which are created if they are missing. They stay even if the
    folder itself cannot be created. -/
def ensureChain (f : Files) : List String → Files × Except Problem Unit
  | [] => (f, .ok ())
  | path :: above =>
    match f.ensureFolder path with
    | .ok f => (f, .ok ())
    | .error .notFound =>
      match ensureChain f above with
      | (f, .ok ()) =>
        match f.ensureFolder path with
        | .ok f => (f, .ok ())
        | .error problem => (f, .error problem)
      | failed => failed
    | .error problem => (f, .error problem)

/-- The outcome of creating a folder and all folders on the way to it; for the empty path there is
    nothing to do. -/
def createFolders (path : String) : Files × Except Problem Unit :=
  if path.isEmpty then (f, .ok ()) else ensureChain f (path :: (Path.ofText path).parents)

/-- The outcome of removing an empty folder at a place by its path. It does not matter if the path
    leads nowhere any more. -/
def removeEmpty (path : String) (place : Place) : Files × Except Problem Unit :=
  match f.locate path, (Path.ofText path).pieces.getLast? with
  | .error .notFound, _ => (f, .ok ())
  | .error problem, _ => (f, .error problem)
  | .ok _, some "." => (f, .error .invalidArgument)
  | .ok _, some ".." => (f, .error .notEmpty)
  | .ok _, _ => ({ f with tree := f.tree.remove place }, .ok ())

/-- The outcome of removing a folder. What is in it goes even if the folder itself cannot. -/
def removeFolder (path : String) : Files × Except Problem Unit :=
  match f.find path with
  | .error problem => (f, .error problem)
  | .ok (_, .file _) => (f, .error .notAFolder)
  | .ok (place, .folder) => removeEmpty { f with tree := f.tree.clear place } path place

/-- The place of something there is, from the root. -/
def canonical (path : String) : Except Problem Place := (f.find path).map Prod.fst

end Files

end CapacityExpansion
