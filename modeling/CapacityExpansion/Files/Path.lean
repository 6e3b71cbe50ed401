import CapacityExpansion.Text.Split

/-!
# Paths

A path is a text; its pieces are what is between slashes. A single dot stands for
the folder itself and means nothing, except that there must be such a folder; two
dots stand for the folder above. Joining a name to a path appends it after a
slash, unless the name is itself a path from the root. A path which ends in a
slash can only be a folder.

* `join`: a path and a path below it;
* `Path.ofText`: the pieces of a path;
* `Path.parents`: the paths of the folders on the way to a path.
-/

namespace CapacityExpansion.Files

/-- A path taken apart. -/
structure Path where
  /-- Whether it starts at the root. -/
  absolute : Bool
  /-- Its pieces, none of which is empty. -/
  pieces : List String
  /-- Whether it ends in a slash. -/
  endsInSlash : Bool
  deriving DecidableEq, Repr

/-- Whether a path starts at the root. -/
def isAbsolute (path : String) : Bool := path.toList.head? == some '/'

/-- A path below another one; a path from the root stays as it is. -/
def join (base path : String) : String :=
  if isAbsolute path || base.isEmpty then path
  else if base.toList.getLast? == some '/' then base ++ path
  else base ++ "/" ++ path

namespace Path

/-- The parts of a path. -/
def ofText (path : String) : Path :=
  let pieces := Text.split '/' path
  { absolute := isAbsolute path
    pieces := pieces.filter (· ≠ "")
    endsInSlash := pieces.getLast? = some "" }

/-- The pieces other than single dots. -/
def components (path : Path) : List String := path.pieces.filter (· ≠ ".")

/-- The pieces which lead to the folder in which the path looks for its last name. -/
def way (path : Path) : List String :=
  match path.pieces.getLast? with
  | none | some "." | some ".." => path.pieces
  | some _ => path.pieces.dropLast ++ ["."]

/-- The paths of the folders above some components, given backwards, the nearest one first. -/
def parentsOf (absolute : Bool) : (backwards : List String) → List String
  | [] | [_] => []
  | _ :: name :: above =>
    ((if absolute then "/" else "") ++ "/".intercalate (name :: above).reverse) ::
      parentsOf absolute (name :: above)

/-- The paths of the folders on the way to a path, the nearest one first. -/
def parents (path : Path) : List String := parentsOf path.absolute path.components.reverse

end Path

/-- The part of a file name after its last dot, unless that dot is its first character. -/
def extension? (name : String) : Option String :=
  match (Text.splitChars '.' name.toList).reverse with
  | last :: before :: rest =>
    if rest.isEmpty && before.isEmpty then none else some (String.ofList last)
  | _ => none

end CapacityExpansion.Files
