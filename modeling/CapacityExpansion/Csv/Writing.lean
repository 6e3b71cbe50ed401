import CapacityExpansion.Csv.Grammar

/-!
# Writing separated values

How records become a text. A cell is quoted if it contains a comma, a quotation
mark or a line break, and so is the only cell of a record if it is empty: the
record would be a blank line otherwise. All records of a text have the same
number of cells.

* `writeRecords`: the text of some records;
* `checkWidths`: all records have as many cells as the one before.
-/

namespace CapacityExpansion.Csv

/-- Whether a character can only be in a quoted cell. -/
def needsQuotes (c : Char) : Bool := c == ',' || c == '"' || isBreak c

/-- The characters of a cell between quotation marks. -/
def quoted (cell : List Char) : List Char :=
  '"' :: cell.flatMap (fun c => if c = '"' then ['"', '"'] else [c]) ++ ['"']

/-- The text of a cell. -/
def writeCell (cell : List Char) : List Char := if cell.any needsQuotes then quoted cell else cell

/-- The text of the cells of a record after the first one. -/
def writeRest : Record Char → List Char
  | [] => []
  | cell :: rest => ',' :: writeCell cell ++ writeRest rest

/-- The text of a record, with the line break which ends it. -/
def writeRecord : Record Char → List Char
  | [] | [[]] => ['"', '"', '\n']
  | cell :: rest => writeCell cell ++ writeRest rest ++ ['\n']

/-- The text of some records. -/
def writeRecords (records : List (Record Char)) : List Char := records.flatMap writeRecord

/-- The text of some records. -/
def write (records : List (List String)) : String :=
  String.ofList (writeRecords (records.map fun record => record.map String.toList))

/-- Two records which follow each other have different numbers of cells. -/
structure WidthProblem where
  /-- The number of cells of the first one. -/
  expected : Nat
  /-- The number of cells of the second one. -/
  actual : Nat
  deriving DecidableEq, Repr

/-- The message of records with different numbers of cells. -/
def WidthProblem.message (p : WidthProblem) : String :=
  s!"csv row length: expected {p.expected} got {p.actual}"

/-- All records have as many cells as the one before. -/
def checkWidths {α : Type} : List (List α) → Except WidthProblem Unit
  | first :: second :: rest =>
    if first.length = second.length then checkWidths (second :: rest)
    else .error { expected := first.length, actual := second.length }
  | _ => .ok ()

end CapacityExpansion.Csv
