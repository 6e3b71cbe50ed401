import CapacityExpansion.Failure

/-!
# Files of records

Reading the records of a file. Most files may be missing, which means that they
have no records. Neither has a folder: it can be opened like a file, and that
there is nothing to read in it goes unnoticed while the header is looked for.
-/

namespace CapacityExpansion.Files

open Csv (Schema Row)

/-- The table which the contents of a file are. -/
def Content.table : Content → Csv.Table
  | .text content => Csv.Table.ofSymbols content.toList
  | .binary bytes => Csv.Table.ofSymbols bytes

/-- The table which is read of something: of a folder, that of an empty file. -/
def Node.table : Node → Csv.Table
  | .file content => content.table
  | .folder => Csv.Table.ofSymbols ([] : List Char)

variable (f : Files)

/-- The records of a file, read in one way or another. -/
def readTable {α : Type} (read : Csv.Table → Except Csv.Problem (List α)) (path : String) :
    Attempt (List α) :=
  Attempt.within (Failure.reading path) do
    let (_, node) ← Attempt.ofFiles (f.find path)
    Attempt.ofTable (read node.table)

/-- The records of a file which must have some. -/
def readSome {α : Type} (read : Csv.Table → Except Csv.Problem (List α)) (path : String) :
    Attempt (List α) := do
  let rows ← f.readTable read path
  if rows.isEmpty then throw (.stated s!"CSV file {path} cannot be empty")
  return rows

/-- The records of a file which may be missing. -/
def readAny {α : Type} (read : Csv.Table → Except Csv.Problem (List α)) (path : String) :
    Attempt (List α) :=
  if f.doesExist path then f.readTable read path else .ok []

end CapacityExpansion.Files
