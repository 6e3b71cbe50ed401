import CapacityExpansion.Csv.Grammar
import CapacityExpansion.Text.Blank

/-!
# Tables of cells

A file of separated values is a table: its first record is the header, which
names the columns, and every other record has as many cells as the header. Blanks
around a cell do not belong to it, whether or not they are quoted.

Records are numbered from the header, which is 0; blank lines are not counted.

* `Table.ofSymbols`: the table of a file;
* `Table.row`: a record as text.
-/

namespace CapacityExpansion.Csv

/-- The texts of the cells of a record, `none` for a cell which is no text. -/
abbrev Cells := List (Option String)

/-- The text of a cell, if it is text. -/
def cellText? {σ : Type} [Symbol σ] (cell : List σ) : Option String :=
  (Symbol.text? cell).map Text.trim

/-- The table of a file. -/
structure Table where
  /-- The names of the columns, unless one of them is no text. -/
  header : Option (List String)
  /-- The number of columns. -/
  width : Nat
  /-- The records after the header. -/
  body : List Cells

/-- The table of a file with some symbols. -/
def Table.ofSymbols {σ : Type} [Symbol σ] [DecidableEq σ] (symbols : List σ) : Table :=
  match records (dropMark symbols) with
  | [] => { header := some [], width := 0, body := [] }
  | header :: body =>
    { header := header.mapM cellText?
      width := header.length
      body := body.map fun record => record.map cellText? }

/-- Why a record is not a row of its table. -/
inductive RowProblem where
  /-- It has another number of cells. -/
  | length (expected actual : Nat)
  /-- A cell is no text. -/
  | encoding (cell : Nat)
  deriving DecidableEq, Repr

/-- The cells of a record, as text. -/
def texts (record : Cells) : Except RowProblem (List String) :=
  record.zipIdx.mapM fun (cell, i) =>
    match cell with
    | some text => .ok text
    | none => .error (.encoding i)

/-- A record as a row of a table. -/
def Table.row (table : Table) (record : Cells) : Except RowProblem (List String) :=
  if record.length = table.width then texts record
  else .error (.length table.width record.length)

end CapacityExpansion.Csv
