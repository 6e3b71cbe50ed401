import CapacityExpansion.Csv.Table
import CapacityExpansion.Csv.Writing
import CapacityExpansion.Proofs.Data.Success
import Mathlib.Data.List.DropRight
import Mathlib.Data.List.TakeWhile

/-!
# Reading back what was written

A text of separated values reads as a header and rows if all of its records have
as many cells as the first one. The cells which are read have no blanks around
them, and a table of such cells can be written and read again: quotation marks
keep the commas and line breaks of a cell from being taken for those between
cells and records, and keep the only cell of a record from being taken for a
blank line.

The one thing which is not read back is a byte order mark at the start of the
first name of the header. It is not quoted, and the text then starts with it.

* `Reads`: a text is a table with a header and rows under it;
* `reads_iff_of_records_eq_cons`: in terms of the records of the text;
* `records_writeRecords`: the records of a text which was written;
* `reads_write`: a table of trimmed cells is read back.
-/

namespace CapacityExpansion.Text

/-! ## Trimming -/

/-- The blanks are dropped at the left end first, and then at the right one. -/
theorem trimChars_eq_rdropWhile (cs : List Char) :
    trimChars cs = (cs.dropWhile isBlank).rdropWhile isBlank := rfl

/-- What is left after trimming does not start with a blank. -/
theorem dropWhile_trimChars (cs : List Char) : (trimChars cs).dropWhile isBlank = trimChars cs := by
  rw [trimChars_eq_rdropWhile, List.dropWhile_eq_self_iff]
  intro hpos
  -- The first character is also the first one before the blanks at the end were dropped.
  have hstart := List.rdropWhile_prefix isBlank (cs.dropWhile isBlank)
  rw [hstart.getElem hpos]
  exact List.dropWhile_eq_self_iff.1 (List.dropWhile_idempotent isBlank cs) _

theorem trimChars_trimChars (cs : List Char) : trimChars (trimChars cs) = trimChars cs := by
  rw [trimChars_eq_rdropWhile (trimChars cs), dropWhile_trimChars, trimChars_eq_rdropWhile,
    List.rdropWhile_idempotent]

@[simp] theorem trim_trim (s : String) : trim (trim s) = trim s := by
  rw [trim, trim, String.toList_ofList, trimChars_trimChars]

end CapacityExpansion.Text

namespace CapacityExpansion.Csv

/-! ## Tables of text -/

/-- A text is a table with a header and rows under it. -/
@[mk_iff]
structure Reads (text : String) (header : List String) (rows : List (List String)) : Prop where
  /-- Its first record is the header. -/
  header : (Table.ofSymbols text.toList).header = some header
  /-- The other ones are the rows. -/
  rows : (Table.ofSymbols text.toList).body.mapM (Table.ofSymbols text.toList).row = .ok rows

/-- The cells of a record, without the blanks around them. -/
def cellsOf (record : Record Char) : List String :=
  record.map fun cell => Text.trim (String.ofList cell)

/-- There are no blanks around the cells of a row. -/
def Trimmed (row : List String) : Prop := ∀ cell ∈ row, Text.trim cell = cell

theorem trimmed_cellsOf (record : Record Char) : Trimmed (cellsOf record) := by
  intro cell hcell
  obtain ⟨chars, _, rfl⟩ := List.mem_map.1 hcell
  exact Text.trim_trim _

/-- The characters of trimmed cells are the cells they were. -/
theorem Trimmed.cellsOf_map_toList {row : List String} (h : Trimmed row) :
    cellsOf (row.map String.toList) = row := by
  rw [cellsOf, List.map_map, List.map_congr_left (g := id), List.map_id]
  intro cell hcell
  rw [Function.comp_apply, String.ofList_toList, h cell hcell, id]

@[simp] theorem length_cellsOf (record : Record Char) : (cellsOf record).length = record.length :=
  List.length_map _

/-- All cells of a text are text. -/
theorem texts_map_cellText? (record : Record Char) :
    texts (record.map cellText?) = .ok (cellsOf record) := by
  rw [texts, mapM_ok_iff]
  generalize 0 = n
  induction record generalizing n with
  | nil => exact .nil
  | cons cell rest ih => exact .cons rfl (ih (n + 1))

/-- A record is a row if it has as many cells as the table has columns. -/
theorem row_map_cellText?_iff {table : Table} {record : Record Char} {row : List String} :
    table.row (record.map cellText?) = .ok row ↔
      record.length = table.width ∧ cellsOf record = row := by
  rw [Table.row, List.length_map]
  split
  · next h => rw [texts_map_cellText?, Except.ok.injEq, and_iff_right h]
  · next h => simp [h]

/-- Every text has a header. -/
theorem exists_header (text : String) :
    ∃ header, (Table.ofSymbols text.toList).header = some header := by
  rw [Table.ofSymbols]
  split
  · exact ⟨[], rfl⟩
  · exact ⟨_, List.mapM_pure⟩

/-- A text without records is a table without columns and rows. -/
theorem reads_iff_of_records_eq_nil {text : String} {header : List String}
    {rows : List (List String)} (h : records (dropMark text.toList) = []) :
    Reads text header rows ↔ header = [] ∧ rows = [] := by
  have htable : Table.ofSymbols text.toList = { header := some [], width := 0, body := [] } := by
    rw [Table.ofSymbols, h]
  rw [reads_iff, htable, Option.some.injEq, mapM_ok_iff, List.forall₂_nil_left_iff,
    eq_comm (a := [])]

/-- A text with records is a table if all of them have as many cells as the first one. -/
theorem reads_iff_of_records_eq_cons {text : String} {header : List String}
    {rows : List (List String)} {first : Record Char} {rest : List (Record Char)}
    (h : records (dropMark text.toList) = first :: rest) :
    Reads text header rows ↔ cellsOf first = header ∧
      (∀ record ∈ rest, record.length = first.length) ∧ rest.map cellsOf = rows := by
  have htable : Table.ofSymbols text.toList =
      { header := first.mapM cellText?, width := first.length,
        body := rest.map fun record => record.map cellText? } := by
    rw [Table.ofSymbols, h]
  have hfirst : first.mapM cellText? = some (cellsOf first) := List.mapM_pure
  rw [reads_iff, htable, hfirst, Option.some.injEq, mapM_ok_iff, List.forall₂_map_left_iff]
  simp only [row_map_cellText?_iff]
  rw [List.forall₂_and_left, ← List.forall₂_map_left_iff (R := Eq), List.forall₂_eq_eq_eq]

/-! ## Scanning what was written -/

section Step

variable {place next : Place} {c : Char} {cell : List Char} {record : Record Char}
  {rest : List Char}

theorem scan_skip (h : action place c = .skip next) :
    scan place cell record (c :: rest) = scan next cell record rest := by
  rw [scan, h]

theorem scan_keep (h : action place c = .keep next) :
    scan place cell record (c :: rest) = scan next (c :: cell) record rest := by
  rw [scan, h]

theorem scan_endCell (h : action place c = .endCell) :
    scan place cell record (c :: rest) = scan .cellStart [] (cell.reverse :: record) rest := by
  rw [scan, h]

theorem scan_endRecord (h : action place c = .endRecord) :
    scan place cell record (c :: rest) = (cell.reverse :: record).reverse :: records rest := by
  rw [scan, h, records]

/-- Outside quotation marks, a character which needs none belongs to the cell. -/
theorem action_of_not_needsQuotes (hplace : place ≠ .quoted) (hc : needsQuotes c = false) :
    action place c = .keep .plain := by
  simp only [needsQuotes, Bool.or_eq_false_iff, beq_eq_false_iff_ne] at hc
  obtain ⟨⟨hcomma, hquote⟩, hbreak⟩ := hc
  have hplain : plainAction c = .keep .plain := by
    rw [plainAction, hbreak, if_neg Bool.false_ne_true]
    exact if_neg hcomma
  cases place with
  | lineStart =>
    rw [action, hbreak, if_neg Bool.false_ne_true, hplain]
    exact if_neg hquote
  | plain => exact hplain
  | quoted => exact absurd rfl hplace
  | cellStart | closing =>
    rw [action, hplain]
    exact if_neg hquote

/-- Inside quotation marks, every other character belongs to the cell. -/
theorem action_quoted (hc : c ≠ '"') : action .quoted c = .keep .quoted := if_neg hc

/-- Outside quotation marks, a comma ends the cell. -/
theorem action_comma (hplace : place ≠ .quoted) : action place ',' = .endCell := by
  cases place with
  | quoted => exact absurd rfl hplace
  | lineStart | cellStart | plain | closing => rfl

/-- Outside quotation marks, a line break ends the record unless there is none yet. -/
theorem action_break (hplace : place ≠ .quoted) (hstart : place ≠ .lineStart) :
    action place '\n' = .endRecord := by
  cases place with
  | quoted => exact absurd rfl hplace
  | lineStart => exact absurd rfl hstart
  | cellStart | plain | closing => rfl

end Step

/-- Characters which need no quotation marks are read as they are. -/
theorem scan_plain {chars : List Char} (hchars : ∀ c ∈ chars, needsQuotes c = false)
    (cell : List Char) (record : Record Char) (rest : List Char) :
    scan .plain cell record (chars ++ rest) = scan .plain (chars.reverse ++ cell) record rest := by
  induction chars generalizing cell with
  | nil => rfl
  | cons c chars ih =>
    rw [List.forall_mem_cons] at hchars
    rw [List.cons_append, scan_keep (action_of_not_needsQuotes (by decide) hchars.1), ih hchars.2,
      List.reverse_cons, List.append_assoc, List.singleton_append]

/-- Inside quotation marks, all characters are if quotation marks are written twice. -/
theorem scan_quoted (chars cell : List Char) (record : Record Char) (rest : List Char) :
    scan .quoted cell record
        (chars.flatMap (fun c => if c = '"' then ['"', '"'] else [c]) ++ rest) =
      scan .quoted (chars.reverse ++ cell) record rest := by
  induction chars generalizing cell with
  | nil => rfl
  | cons c chars ih =>
    rw [List.flatMap_cons, List.append_assoc, List.reverse_cons, List.append_assoc,
      List.singleton_append, ← ih]
    by_cases hc : c = '"'
    · -- The first mark seems to close the quoted part, and the second one belongs to the cell.
      subst hc
      rfl
    · rw [if_neg hc, List.singleton_append, scan_keep (action_quoted hc)]

/-- A written cell is read back, up to what comes after it. Only if it is empty is the place still
    the one before it. -/
theorem exists_scan_writeCell {place : Place} (hplace : place = .lineStart ∨ place = .cellStart)
    (cell : List Char) :
    ∃ next ≠ .quoted, (next = .lineStart → place = .lineStart ∧ cell = []) ∧
      ∀ record rest, scan place [] record (writeCell cell ++ rest) =
        scan next cell.reverse record rest := by
  rw [writeCell]
  split
  · -- The cell is quoted: the place after it is the one after the closing mark.
    refine ⟨.closing, by decide, nofun, fun record rest => ?_⟩
    have hopen : action place '"' = .skip .quoted := by rcases hplace with rfl | rfl <;> rfl
    have hclose : action .quoted '"' = .skip .closing := rfl
    rw [quoted, List.cons_append, List.cons_append, scan_skip hopen, List.append_assoc, scan_quoted,
      List.append_nil, List.singleton_append, scan_skip hclose]
  · next hquotes =>
    rw [Bool.not_eq_true, List.any_eq_false] at hquotes
    cases cell with
    | nil =>
      refine ⟨place, ?_, fun h => ⟨h, rfl⟩, fun record rest => rfl⟩
      rcases hplace with rfl | rfl <;> decide
    | cons c chars =>
      simp only [Bool.not_eq_true] at hquotes
      rw [List.forall_mem_cons] at hquotes
      have hne : place ≠ .quoted := by rcases hplace with rfl | rfl <;> decide
      refine ⟨.plain, by decide, nofun, fun record rest => ?_⟩
      rw [List.cons_append, scan_keep (action_of_not_needsQuotes hne hquotes.1),
        scan_plain hquotes.2, List.reverse_cons]

/-- The cells of a written record are read back, the first one after `record` and the others after
    it, unless the record is a blank line. -/
theorem scan_writeRest {place : Place} (hplace : place = .lineStart ∨ place = .cellStart)
    {cell : List Char} {cells : Record Char}
    (hblank : place = .lineStart → cell = [] → cells ≠ []) (record : Record Char)
    (rest : List Char) :
    scan place [] record (writeCell cell ++ writeRest cells ++ '\n' :: rest) =
      (record.reverse ++ cell :: cells) :: records rest := by
  induction cells generalizing place cell record with
  | nil =>
    obtain ⟨next, hquoted, hstart, hscan⟩ := exists_scan_writeCell hplace cell
    have hne : next ≠ .lineStart := fun h => hblank (hstart h).1 (hstart h).2 rfl
    rw [List.append_assoc, hscan, writeRest, List.nil_append,
      scan_endRecord (action_break hquoted hne), List.reverse_reverse, List.reverse_cons]
  | cons second cells ih =>
    obtain ⟨next, hquoted, -, hscan⟩ := exists_scan_writeCell hplace cell
    rw [List.append_assoc, hscan, writeRest, List.cons_append, List.cons_append,
      scan_endCell (action_comma hquoted), List.reverse_reverse, ih (.inr rfl) (nofun),
      List.reverse_cons, List.append_assoc, List.singleton_append]

theorem records_writeRecord_append {record : Record Char} (hne : record ≠ []) (rest : List Char) :
    records (writeRecord record ++ rest) = record :: records rest := by
  rw [records, writeRecord.eq_def]
  split
  · exact absurd rfl hne
  · rfl
  · next cell cells hblank =>
    rw [List.append_assoc, List.singleton_append, scan_writeRest (.inl rfl) fun _ => hblank,
      List.reverse_nil, List.nil_append]

/-- The records of a text which was written are those which were written. -/
theorem records_writeRecords {rs : List (Record Char)} (hne : ∀ record ∈ rs, record ≠ []) :
    records (writeRecords rs) = rs := by
  induction rs with
  | nil => rfl
  | cons record rs ih =>
    rw [List.forall_mem_cons] at hne
    rw [writeRecords, List.flatMap_cons, records_writeRecord_append hne.1, ← writeRecords,
      ih hne.2]

/-- A text which was written starts with a byte order mark only if its first cell does. -/
theorem dropMark_writeRecords {cell : List Char} (hcell : cell.head? ≠ some '\uFEFF')
    (cells : Record Char) (rs : List (Record Char)) :
    dropMark (writeRecords ((cell :: cells) :: rs)) = writeRecords ((cell :: cells) :: rs) := by
  have hhead : (writeRecords ((cell :: cells) :: rs)).head? ≠ some '\uFEFF' := by
    rw [writeRecords, List.flatMap_cons]
    cases cell with
    | nil => cases cells <;> exact nofun
    | cons c chars =>
      rw [writeRecord, writeCell]
      · split
        · exact nofun
        · exact hcell
      · exact nofun
  rw [dropMark, if_neg]
  rw [List.isPrefixOf_iff_prefix]
  rintro ⟨rest, hrest⟩
  rw [← hrest] at hhead
  exact hhead rfl

/-! ## Tables which were written -/

/-- A table of trimmed cells is read back if a byte order mark at its start is not one of a name. -/
theorem reads_write {name : String} {names : List String} {rows : List (List String)}
    (hname : name.toList.head? ≠ some '\uFEFF')
    (htrimmed : ∀ row ∈ (name :: names) :: rows, Trimmed row)
    (hwidth : ∀ row ∈ rows, row.length = (name :: names).length) :
    Reads (write ((name :: names) :: rows)) (name :: names) rows := by
  have hne : ∀ record ∈ ((name :: names) :: rows).map fun row => row.map String.toList,
      record ≠ [] := by
    intro record hrecord
    obtain ⟨row, hrow, rfl⟩ := List.mem_map.1 hrecord
    rw [Ne, List.map_eq_nil_iff]
    rintro rfl
    rcases List.mem_cons.1 hrow with hrow | hrow
    · cases hrow
    · cases hwidth [] hrow
  have hrecords : records (dropMark (write ((name :: names) :: rows)).toList) =
      (name :: names).map String.toList :: rows.map fun row => row.map String.toList := by
    rw [write, String.toList_ofList, List.map_cons, List.map_cons, dropMark_writeRecords hname,
      ← List.map_cons, ← List.map_cons, records_writeRecords hne]
  rw [List.forall_mem_cons] at htrimmed
  rw [reads_iff_of_records_eq_cons hrecords, List.map_map]
  refine ⟨htrimmed.1.cellsOf_map_toList, ?_, ?_⟩
  · simpa using hwidth
  · rw [List.map_congr_left (g := id), List.map_id]
    exact fun row hrow => (htrimmed.2 row hrow).cellsOf_map_toList

/-! ## What a table reads as -/

namespace Reads

variable {text : String} {header : List String} {rows : List (List String)}
  (h : Reads text header rows)
include h

/-- The cells are those of records of the same length. -/
theorem exists_records : ∃ (first : Record Char) (rest : List (Record Char)),
    cellsOf first = header ∧ (∀ record ∈ rest, record.length = first.length) ∧
      rest.map cellsOf = rows := by
  cases hrecords : records (dropMark text.toList) with
  | nil =>
    obtain ⟨rfl, rfl⟩ := (reads_iff_of_records_eq_nil hrecords).1 h
    exact ⟨[], [], rfl, fun _ hrecord => absurd hrecord List.not_mem_nil, rfl⟩
  | cons first rest => exact ⟨first, rest, (reads_iff_of_records_eq_cons hrecords).1 h⟩

/-- All rows have as many cells as the header. -/
theorem length_eq {row : List String} (hrow : row ∈ rows) : row.length = header.length := by
  obtain ⟨first, rest, rfl, hlength, rfl⟩ := h.exists_records
  obtain ⟨record, hrecord, rfl⟩ := List.mem_map.1 hrow
  rw [length_cellsOf, length_cellsOf, hlength record hrecord]

/-- There are no blanks around the cells of the header and the rows. -/
theorem trimmed {row : List String} (hrow : row ∈ header :: rows) : Trimmed row := by
  obtain ⟨first, rest, rfl, -, rfl⟩ := h.exists_records
  rcases List.mem_cons.1 hrow with rfl | hrow
  · exact trimmed_cellsOf first
  · obtain ⟨record, _, rfl⟩ := List.mem_map.1 hrow
    exact trimmed_cellsOf record

end Reads

end CapacityExpansion.Csv
