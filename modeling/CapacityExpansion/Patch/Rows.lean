import CapacityExpansion.Csv.Table
import CapacityExpansion.Csv.Writing
import CapacityExpansion.Data.Checking
import CapacityExpansion.Data.OrderedSet
import CapacityExpansion.Failure
import CapacityExpansion.Text.Split

/-!
# Patching rows

A patch of a file says which of its rows are deleted and which rows are added,
and perhaps what its header is. The rows of a file are distinct; a deleted row
must be there and an added one must not. The rows which stay keep their order,
and the added ones follow in the order they were given.

* `FilePatch.apply`: the rows of a patched file;
* `FilePatch.patchText`: the text of a patched file.
-/

namespace CapacityExpansion.Patch

/-- A row: its cells. -/
abbrev Row := List String

/-- The row written as cells between commas, without the blanks around the cells. -/
def Row.ofText (text : String) : Row := (Text.split ',' text).map Text.trim

/-- The text of a row in a message. -/
def shownRow (row : Row) : String := "[" ++ ", ".intercalate (row.map Text.quote) ++ "]"

/-- Changes to the rows of a file. -/
structure FilePatch where
  /-- The name of the file. -/
  fileName : String
  /-- The header it must have; a file which does not exist is created with it. -/
  header : Option Row := none
  /-- The rows to delete. -/
  deleted : OrderedSet Row := ∅
  /-- The rows to add. -/
  added : OrderedSet Row := ∅

/-- A patch is put together in a way which is not allowed. -/
inductive Misuse where
  /-- A file patch has a header already. -/
  | repeatedHeader
  /-- A store patch has a patch of the scenarios already. -/
  | repeatedScenarios
  /-- A patch of the scenarios is no document. -/
  | malformedScenarios
  deriving DecidableEq, Repr

/-- The message of a misuse. -/
def Misuse.message : Misuse → String
  | .repeatedHeader => "Header already set for this FilePatch"
  | .repeatedScenarios => "Scenarios patch already set for this StorePatch"
  | .malformedScenarios => "Failed to parse string passed to with_scenarios_patch"

/-- Why a patch cannot be applied to a file. -/
inductive Problem where
  /-- The header is not the expected one. -/
  | header (actual expected : Row)
  /-- A record is no row of the file. -/
  | record (problem : Csv.Problem)
  /-- The file has a row twice. -/
  | repeated (row : Row)
  /-- A row is both added and deleted. -/
  | contradictory (row : Row)
  /-- A row to delete is not there. -/
  | missing (row : Row)
  /-- A row to add is there already. -/
  | present (row : Row)
  /-- A row has another number of cells than the one before. -/
  | width (problem : Csv.WidthProblem)
  deriving DecidableEq, Repr

/-- The failure of a patch which cannot be applied. -/
def Problem.failure : Problem → Failure
  | .header actual expected =>
    .stated ("Header mismatch: base file has [" ++ ", ".intercalate actual ++ "], patch has [" ++
      ", ".intercalate expected ++ "]")
  | .record problem => { cause := .table problem }
  | .repeated row => .stated ("Duplicate row in base file: " ++ shownRow row)
  | .contradictory row => .stated ("Row is both added and deleted: " ++ shownRow row)
  | .missing row => .stated ("Row to delete not found: " ++ shownRow row)
  | .present row => .stated ("Row to add is already present: " ++ shownRow row)
  | .width problem => .stated problem.message

namespace FilePatch

variable (patch : FilePatch)

/-! ## Putting a patch together -/

/-- The patch with the header its file must have. -/
def withHeader (header : String) : Except Misuse FilePatch :=
  if patch.header.isSome then .error .repeatedHeader
  else .ok { patch with header := some (Row.ofText header) }

/-- The patch which also adds a row. -/
def addRow (row : String) : FilePatch :=
  { patch with added := patch.added.insert (Row.ofText row) }

/-- The patch which also deletes a row. -/
def deleteRow (row : String) : FilePatch :=
  { patch with deleted := patch.deleted.insert (Row.ofText row) }

/-! ## Applying a patch -/

/-- The rows with one more row of the file. -/
def insertRecord (table : Csv.Table) (rows : OrderedSet Row)
    (record : Csv.Cells × Nat) : Except Problem (OrderedSet Row) := do
  let row ← (table.row record.1).mapError fun problem => .record ⟨record.2 + 1, .shape problem⟩
  require (row ∉ rows.elements) (.repeated row)
  return rows.insert row

/-- The rows of a file, which are distinct. -/
def rowsOf (table : Csv.Table) : Except Problem (OrderedSet Row) :=
  table.body.zipIdx.foldlM (insertRecord table) ∅

/-- The rows without one which is deleted. -/
def delete (rows : OrderedSet Row) (row : Row) : Except Problem (OrderedSet Row) := do
  require (row ∉ patch.added.elements) (.contradictory row)
  require (row ∈ rows.elements) (.missing row)
  return rows.erase row

/-- The rows with one which is added. -/
def add (rows : OrderedSet Row) (row : Row) : Except Problem (OrderedSet Row) := do
  require (row ∉ rows.elements) (.present row)
  return rows.insert row

/-- The rows of a patched file. -/
def apply (rows : OrderedSet Row) : Except Problem (OrderedSet Row) := do
  let rows ← patch.deleted.elements.foldlM patch.delete rows
  patch.added.elements.foldlM add rows

/-- The header of a file is the expected one. -/
def checkHeader (header : Row) : Except Problem Unit :=
  match patch.header with
  | some expected => require (header = expected) (.header header expected)
  | none => .ok ()

/-- The text of a patched file. -/
def patchText (base : String) : Except Problem String := do
  let table := Csv.Table.ofSymbols base.toList
  let header := table.header.getD []
  patch.checkHeader header
  let rows ← patch.apply (← rowsOf table)
  let records := header :: rows.elements
  (Csv.checkWidths records).mapError Problem.width
  return Csv.write records

/-- The text of a file with the expected header and no rows. -/
def emptyText (header : Row) : String := ",".intercalate header ++ "\n"

end FilePatch

end CapacityExpansion.Patch
