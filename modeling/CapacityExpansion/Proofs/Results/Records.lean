import CapacityExpansion.Proofs.Csv.RoundTrip
import CapacityExpansion.Results.Tables

/-!
# Tables as they are written

A table is written as a record with the names of its columns and a record for every
row. Whoever reads the text finds the rows again, and what they have in a column under
the name of the column.

* `records_text`: the records of a table;
* `WrittenRow`, `writtenRows`: the rows of a text, by the names of its columns;
* `TableFormat.cell?`, `writtenRows_text`: those of a table.
-/

namespace CapacityExpansion.Results

variable {ρ : Type} {format : TableFormat ρ}

/-! ## Records -/

/-- The records of a text, in cells. -/
def recordsOf (text : String) : List (List String) :=
  (Csv.records text.toList).map fun record => record.map String.ofList

/-- A table has one record for the names of its columns and one for each row, in their order, or
    none if there are no rows. -/
theorem records_text (hcolumns : format.columns ≠ [])
    (rows : List ρ) : recordsOf (format.text rows) = if rows = [] then [] else
      format.columns.map Prod.fst :: rows.map fun row => format.columns.map fun column =>
        column.2 row := by
  rcases rows with _ | ⟨row, rows⟩
  · rfl
  · have hne : ∀ record ∈ (format.columns.map Prod.fst :: (row :: rows).map fun row =>
        format.columns.map fun column => column.2 row).map fun record => record.map String.toList,
        record ≠ [] := by
      simp [hcolumns]
    rw [recordsOf, TableFormat.text, List.isEmpty_cons, if_neg Bool.false_ne_true, Csv.write,
      String.toList_ofList, Csv.records_writeRecords hne, List.map_map,
      List.map_congr_left (g := id), List.map_id, if_neg (List.cons_ne_nil _ _)]
    intro record _
    rw [Function.comp_apply, List.map_map, List.map_congr_left (g := id), List.map_id, id]
    exact fun cell _ => String.ofList_toList

/-! ## Rows -/

/-- A row of a text: what it has under the name of a column. -/
abbrev WrittenRow := String → Option String

/-- The rows of a text. Its first record names the columns. -/
def writtenRows (text : String) : List WrittenRow :=
  match recordsOf text with
  | [] => []
  | header :: records => records.map fun record column => (header.zip record).lookup column

/-- The cell of a row in a column, if the table has the column. -/
def TableFormat.cell? (format : TableFormat ρ) (column : String) (row : ρ) :
    Option String :=
  (format.columns.find? (·.1 == column)).map (·.2 row)

/-- The row of a table as it is written. -/
def TableFormat.written (format : TableFormat ρ) (row : ρ) : WrittenRow := fun column =>
  format.cell? column row

/-- What a row has in a column is found under the name of the column. -/
theorem lookup_cells (columns : List (String × (ρ → String))) (row : ρ) (name : String) :
    ((columns.map Prod.fst).zip (columns.map fun column => column.2 row)).lookup name =
      (columns.find? (·.1 == name)).map (·.2 row) := by
  rw [List.zip_map']
  induction columns with
  | nil => rfl
  | cons column columns ih =>
    rw [List.map_cons, List.lookup_cons, List.find?_cons, Bool.beq_comm]
    cases column.1 == name with
    | true => rfl
    | false => exact ih

/-- The rows of a table are found again in its text. -/
theorem writtenRows_text (hcolumns : format.columns ≠ []) (rows : List ρ) :
    writtenRows (format.text rows) = rows.map format.written := by
  rw [writtenRows, records_text hcolumns]
  rcases rows with _ | ⟨row, rows⟩
  · rfl
  · rw [if_neg (List.cons_ne_nil _ _)]
    dsimp only
    rw [List.map_map]
    exact List.map_congr_left fun row _ => funext fun name => lookup_cells format.columns row name

end CapacityExpansion.Results
