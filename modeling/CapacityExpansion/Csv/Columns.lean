import CapacityExpansion.Csv.Table
import CapacityExpansion.Decimal.Reading

/-!
# Columns

What a kind of file holds is said by a list of columns: a name and a way to read
a cell for each. The columns may come in any order and among others; a column
which may be missing has a value for that case. Reading a row goes through its
cells in the order of the file, and then looks for the columns which are missing
in the order of the list, so the first problem is the one a reader would find.

If the header itself is no text, the cells are taken in the order of the list.

* `Row`: the values of a list of columns;
* `readRows`: the rows of a table, or the first problem.
-/

namespace CapacityExpansion.Csv

/-- Why a cell has no value. -/
inductive CellProblem where
  /-- It is no integer. -/
  | integer (problem : Decimal.IntegerProblem)
  /-- It is no real number. -/
  | real (problem : Decimal.RealProblem)
  /-- It is none of the values there are. -/
  | other (message : String)
  deriving DecidableEq, Repr

/-- A column of a kind of file. -/
structure Column where
  /-- Its name. -/
  name : String
  /-- What a cell stands for. -/
  Value : Type
  /-- The value of a cell. -/
  read : String → Except CellProblem Value
  /-- The value if the file has no such column. -/
  absent : Option Value := none
  /-- The value if a row without column names ends before it. -/
  omitted : Option Value := none

namespace Column

/-- A column of texts. -/
def text (name : String) : Column := { name, Value := String, read := .ok }

/-- A column of identifiers. -/
def identifier (name : String) : Column where
  name := name
  Value := Nat
  read cell := ((Decimal.identifiers.read cell).map Int.toNat).mapError .integer

/-- A column of linked indices. -/
def linkedIndex (name : String) : Column where
  name := name
  Value := Int32
  read cell := ((Decimal.linkedIndices.read cell).map Int32.ofInt).mapError .integer

/-- A column of real numbers. -/
def real (name : String) : Column where
  name := name
  Value := Float
  read cell := (Decimal.readReal cell).mapError .real

/-- A column whose cells may be empty, and which the file may lack. -/
def optional (c : Column) : Column where
  name := c.name
  Value := Option c.Value
  read cell := if cell.isEmpty then .ok none else (c.read cell).map some
  absent := some none

/-- A column with a value for rows which lack it. -/
def orElse (c : Column) (default : c.Value) : Column :=
  { c with absent := some default, omitted := some default }

end Column

/-- The values of a list of columns. -/
def Row : List Column → Type
  | [] => Unit
  | c :: rest => c.Value × Row rest

/-- A kind of file. -/
structure Schema where
  /-- The name of its records in messages. -/
  recordName : String
  /-- Its columns. -/
  columns : List Column

/-- What is wrong with a row. -/
inductive Defect where
  /-- It does not fit into its table. -/
  | shape (problem : RowProblem)
  /-- A cell has no value. -/
  | cell (index : Nat) (problem : CellProblem)
  /-- Two columns have the same name. -/
  | duplicateColumn (name : String)
  /-- A column is missing. -/
  | missingColumn (name : String)
  /-- A row without column names is too short. -/
  | tooShort (length : Nat) (recordName : String) (width : Nat)
  deriving DecidableEq, Repr

/-- A row with a defect. -/
structure Problem where
  /-- The number of the record. -/
  record : Nat
  /-- What is wrong with it. -/
  defect : Defect
  deriving DecidableEq, Repr

/-- The message of a problem. -/
def Problem.message (p : Problem) : String :=
  let data := s!"csv data: record {p.record}"
  match p.defect with
  | .shape (.length expected actual) =>
    s!"csv row length: record {p.record} expected {expected} got {actual}"
  | .shape (.encoding cell) => s!"csv utf8: record {p.record} field {cell}"
  | .cell index (.integer problem) => data ++ s!" field {index}: " ++ problem.message
  | .cell index (.real problem) => data ++ s!" field {index}: " ++ problem.message
  | .cell _ (.other message) => data ++ ": " ++ message
  | .duplicateColumn name => data ++ ": duplicate field \x60" ++ name ++ "\x60"
  | .missingColumn name => data ++ ": missing field \x60" ++ name ++ "\x60"
  | .tooShort length recordName width =>
    data ++ s!": invalid length {length}, expected struct {recordName} with {width} element" ++
      (if width = 1 then "" else "s")

/-! ## Rows with column names -/

/-- The cells of known columns have values and no two of them belong to one column. -/
def checkCells (columns : List Column) : (earlier : List String) → List (Nat × String × String) →
    Except Defect Unit
  | _, [] => .ok ()
  | earlier, (index, name, cell) :: rest =>
    match columns.find? (·.name == name) with
    | none => checkCells columns earlier rest
    | some c =>
      if name ∈ earlier then .error (.duplicateColumn name)
      else match c.read cell with
        | .error problem => .error (.cell index problem)
        | .ok _ => checkCells columns (name :: earlier) rest

/-- The value of a column in a row. -/
def valueOf (cells : List (Nat × String × String)) (c : Column) : Except Defect c.Value :=
  match cells.find? (·.2.1 == c.name) with
  | some (index, _, cell) => (c.read cell).mapError (.cell index)
  | none =>
    match c.absent with
    | some value => .ok value
    | none => .error (.missingColumn c.name)

/-- The values of all columns in a row. -/
def valuesOf (cells : List (Nat × String × String)) : (columns : List Column) →
    Except Defect (Row columns)
  | [] => .ok ()
  | c :: rest => do
    let value ← valueOf cells c
    return (value, ← valuesOf cells rest)

/-- A row whose columns have names. -/
def readNamed (schema : Schema) (header row : List String) : Except Defect (Row schema.columns) := do
  let cells := (header.zip row).zipIdx.map fun (cell, index) => (index, cell)
  checkCells schema.columns [] cells
  valuesOf cells schema.columns

/-! ## Rows without column names -/

/-- The values of columns from a position on, taken from the cells from that position on. -/
def valuesFrom (schema : Schema) (index : Nat) : (columns : List Column) → List String →
    Except Defect (Row columns)
  | [], _ => .ok ()
  | c :: rest, [] =>
    match c.omitted with
    | some value => do return (value, ← valuesFrom schema (index + 1) rest [])
    | none => .error (.tooShort index schema.recordName schema.columns.length)
  | c :: rest, cell :: cells => do
    let value ← (c.read cell).mapError (.cell index)
    return (value, ← valuesFrom schema (index + 1) rest cells)

/-! ## Files -/

/-- A row of a file. -/
def readRow (schema : Schema) (table : Table) (record : Cells) :
    Except Defect (Row schema.columns) := do
  let row ← (table.row record).mapError .shape
  match table.header with
  | some header => readNamed schema header row
  | none => valuesFrom schema 0 schema.columns row

/-- The rows of a table, each read by itself, or the first problem. -/
def Table.mapRows {α : Type} (table : Table) (read : Cells → Except Defect α) :
    Except Problem (List α) :=
  table.body.zipIdx.mapM fun (record, i) => (read record).mapError fun defect => ⟨i + 1, defect⟩

/-- The rows of a table with the columns of a kind of file. -/
def readRows (schema : Schema) (table : Table) : Except Problem (List (Row schema.columns)) :=
  table.mapRows (readRow schema table)

/-- The rows of a table, as texts. -/
def readTexts (table : Table) : Except Problem (List (List String)) :=
  table.mapRows fun record => (table.row record).mapError .shape

end CapacityExpansion.Csv
