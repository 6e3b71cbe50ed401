import CapacityExpansion.Data.OrderedMap
import CapacityExpansion.Text.Encoding

/-!
# File trees

The files and folders the program works on, as a map from places to what is
there. A place is the list of names from the root. The contents of a file are a
text, or bytes which are no text.
-/

namespace CapacityExpansion.Files

/-- The contents of a file. -/
inductive Content where
  /-- A text. -/
  | text (text : String)
  /-- Bytes which are no text. -/
  | binary (bytes : List UInt8)
  deriving DecidableEq, Repr

namespace Content

/-- The contents which consist of some bytes. -/
def ofBytes (bytes : List UInt8) : Content :=
  match Text.text? bytes with
  | some content => .text content
  | none => .binary bytes

/-- The text which shows the contents, whatever they are. -/
def shown : Content → String
  | .text content => content
  | .binary bytes => Text.shownText bytes

end Content

/-- What is at a place. -/
inductive Node where
  /-- A file. -/
  | file (content : Content)
  /-- A folder. -/
  | folder
  deriving DecidableEq, Repr

/-- A place: the names from the root to it. -/
abbrev Place := List String

/-- A tree of files and folders. -/
structure Tree where
  /-- What there is below the root. -/
  nodes : OrderedMap Place Node := ∅
  deriving DecidableEq

namespace Tree

instance : Inhabited Tree := ⟨{}⟩

variable (t : Tree)

/-- What is at a place; the root is a folder. -/
def node? (place : Place) : Option Node :=
  if place = [] then some .folder else t.nodes.get? place

/-- The tree with a node at a place. -/
def put (place : Place) (node : Node) : Tree := ⟨t.nodes.insert place node⟩

/-- The tree without a place and everything below it. -/
def remove (place : Place) : Tree where
  nodes := {
    entries := t.nodes.entries.filter fun e => !place.isPrefixOf e.1
    nodup_keys := t.nodes.nodup_keys.sublist (List.filter_sublist.map _) }

/-- The tree without everything below a place. -/
def clear (place : Place) : Tree where
  nodes := {
    entries := t.nodes.entries.filter fun e => !(place.isPrefixOf e.1 && e.1 != place)
    nodup_keys := t.nodes.nodup_keys.sublist (List.filter_sublist.map _) }

/-- The name of a place directly below another one. -/
def childName? (folder place : Place) : Option String :=
  match place.getLast? with
  | some name => if place.dropLast = folder then some name else none
  | none => none

/-- The names of what is directly in a folder. -/
def children (folder : Place) : List String :=
  t.nodes.entries.filterMap fun e => childName? folder e.1

/-- The tree with a folder at a place and at all places above it. -/
def putFolders (place : Place) : Tree :=
  let above := (List.range (place.length + 1)).map place.take
  above.foldl (fun t p => if (t.node? p).isSome then t else t.put p .folder) t

/-- The tree with a file, and the folders it is in. -/
def putFile (place : Place) (content : Content) : Tree :=
  (t.putFolders place.dropLast).put place (.file content)

end Tree

end CapacityExpansion.Files
