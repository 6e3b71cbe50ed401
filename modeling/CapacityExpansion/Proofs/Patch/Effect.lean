import CapacityExpansion.Patch.Rows
import CapacityExpansion.Proofs.Csv.RoundTrip

/-!
# What a patch does to a file

A patch fits a table if the header is the one it expects, the rows are distinct,
each row it deletes is there and is not added as well, and each row it adds is
new and has a cell for every column. The loops of a patch find one offence after
the other, and a row which is too long or too short only when it is written; but
a patch can be applied exactly if it fits.

The rows which are not deleted stay in their order, and the added ones follow in
the order in which they were first given.

* `FilePatch.Fits`: a patch fits a table;
* `FilePatch.outcome`: the rows of the patched table;
* `FilePatch.ofChanges`: the patch made by some changes, one after the other;
* `patchText_ok_iff`: the text of a patched table;
* `patchText_effect`: when there is one and what it is.
-/

namespace CapacityExpansion.Patch

open Csv (Reads Trimmed)

/-! ## Putting a patch together -/

/-- A step in which a patch is put together. The rows are written with commas between the cells. -/
inductive Change where
  /-- The header of the file is expected to be this one. -/
  | header (row : String)
  /-- A row is added. -/
  | add (row : String)
  /-- A row is deleted. -/
  | delete (row : String)
  deriving DecidableEq, Repr

/-- The rows a change adds. -/
def Change.added : Change → List Row
  | .add row => [Row.ofText row]
  | .header _ | .delete _ => []

/-- The rows a change deletes. -/
def Change.deleted : Change → List Row
  | .delete row => [Row.ofText row]
  | .header _ | .add _ => []

namespace FilePatch

/-- A patch with one more change. -/
def change (patch : FilePatch) : Change → Except Misuse FilePatch
  | .header row => patch.withHeader row
  | .add row => .ok (patch.addRow row)
  | .delete row => .ok (patch.deleteRow row)

/-- The patch made by some changes of a file, one after the other. -/
def ofChanges (fileName : String) (changes : List Change) : Except Misuse FilePatch :=
  changes.foldlM change { fileName }

variable {patch patch' : FilePatch}

/-- What a change does to the rows of a patch. -/
theorem rows_of_change {c : Change} (h : patch.change c = .ok patch') :
    patch'.added = patch.added.insertAll c.added ∧
      patch'.deleted = patch.deleted.insertAll c.deleted := by
  cases c with
  | header row =>
    rw [change, withHeader] at h
    split at h
    · cases h
    · cases h
      exact ⟨rfl, rfl⟩
  | add row | delete row =>
    cases h
    exact ⟨rfl, rfl⟩

theorem rows_of_foldlM_change {changes : List Change}
    (h : changes.foldlM change patch = .ok patch') :
    patch'.added = patch.added.insertAll (changes.flatMap Change.added) ∧
      patch'.deleted = patch.deleted.insertAll (changes.flatMap Change.deleted) := by
  induction changes generalizing patch with
  | nil =>
    cases h
    exact ⟨rfl, rfl⟩
  | cons c changes ih =>
    rw [List.foldlM_cons, bind_ok_iff] at h
    obtain ⟨next, hnext, h⟩ := h
    obtain ⟨hadded, hdeleted⟩ := ih h
    obtain ⟨hadded', hdeleted'⟩ := rows_of_change hnext
    rw [hadded, hdeleted, hadded', hdeleted', List.flatMap_cons, List.flatMap_cons,
      OrderedSet.insertAll_append, OrderedSet.insertAll_append]
    exact ⟨rfl, rfl⟩

/-- A patch has the rows of its changes, in the order in which they are first given. -/
theorem rows_of_ofChanges {fileName : String} {changes : List Change}
    (h : ofChanges fileName changes = .ok patch) :
    patch.added = .ofList (changes.flatMap Change.added) ∧
      patch.deleted = .ofList (changes.flatMap Change.deleted) :=
  rows_of_foldlM_change h

/-! ## Applying a patch -/

/-- A patch can be applied to a table. -/
structure Fits (patch : FilePatch) (header : Row) (rows : List Row) : Prop where
  /-- The header is the expected one, if there is one. -/
  expected : ∀ expected ∈ patch.header, header = expected
  /-- No row occurs twice. -/
  nodup : rows.Nodup
  /-- A row to delete is there and is not to be added as well. -/
  deletable : ∀ row ∈ patch.deleted.elements, row ∈ rows ∧ row ∉ patch.added.elements
  /-- A row to add is new and has a cell for every column. -/
  addable : ∀ row ∈ patch.added.elements, row ∉ rows ∧ row.length = header.length

/-- The rows of a patched table. -/
def outcome (patch : FilePatch) (rows : List Row) : List Row :=
  (rows.filter fun row => !patch.deleted.contains row) ++ patch.added.elements

theorem outcome_eq (rows : List Row) : patch.outcome rows =
    rows.filter (· ∉ patch.deleted.elements) ++ patch.added.elements := by
  have hkept (row : Row) :
      (!patch.deleted.contains row) = decide (row ∉ patch.deleted.elements) := by
    rw [Bool.eq_iff_iff, Bool.not_eq_true', ← Bool.not_eq_true, OrderedSet.contains_iff,
      decide_eq_true_iff]
    rfl
  simp only [outcome, hkept]

theorem checkHeader_ok_iff {header : Row} :
    patch.checkHeader header = .ok () ↔ ∀ expected ∈ patch.header, header = expected := by
  rw [checkHeader]
  cases patch.header with
  | none => simp
  | some expected => simp

theorem add_ok_iff {s t : OrderedSet Row} {row : Row} :
    add s row = .ok t ↔ row ∉ s.elements ∧ s.insert row = t := by
  rw [add, seq_ok_iff, require_ok_iff, pure_ok_iff]

theorem delete_ok_iff {s t : OrderedSet Row} {row : Row} :
    patch.delete s row = .ok t ↔
      row ∉ patch.added.elements ∧ row ∈ s.elements ∧ s.erase row = t := by
  rw [delete, seq_ok_iff, seq_ok_iff, require_ok_iff, require_ok_iff, pure_ok_iff]

theorem insertRecord_ok_iff {table : Csv.Table} {s t : OrderedSet Row}
    {record : Csv.Cells × Nat} :
    insertRecord table s record = .ok t ↔
      ∃ row, table.row record.1 = .ok row ∧ add s row = .ok t := by
  rw [insertRecord, bind_ok_iff]
  simp only [mapError_ok_iff, seq_ok_iff, require_ok_iff, pure_ok_iff, add_ok_iff]

/-- Rows can be added one after the other if they are new and distinct, and then they are at the
    end, in order. -/
theorem foldlM_add_ok_iff {s t : OrderedSet Row} {rows : List Row} :
    rows.foldlM add s = .ok t ↔
      rows.Nodup ∧ (∀ row ∈ rows, row ∉ s.elements) ∧ s.elements ++ rows = t.elements := by
  induction rows generalizing s with
  | nil =>
    rw [List.foldlM_nil, pure_ok_iff, List.append_nil, OrderedSet.ext_iff]
    simp
  | cons row rows ih =>
    rw [List.foldlM_cons, bind_ok_iff, List.forall_mem_cons, List.nodup_cons]
    constructor
    · rintro ⟨s', hs', h⟩
      obtain ⟨hnew, rfl⟩ := add_ok_iff.1 hs'
      obtain ⟨hnodup, hnews, hrest⟩ := ih.1 h
      simp only [OrderedSet.mem_insert, not_or] at hnews
      rw [OrderedSet.elements_insert, if_neg hnew, List.append_assoc] at hrest
      exact ⟨⟨fun hrow => (hnews row hrow).2 rfl, hnodup⟩,
        ⟨hnew, fun r hr => (hnews r hr).1⟩, hrest⟩
    · rintro ⟨⟨hrow, hnodup⟩, ⟨hnew, hnews⟩, hrest⟩
      refine ⟨s.insert row, add_ok_iff.2 ⟨hnew, rfl⟩, ih.2 ⟨hnodup, fun r hr => ?_, ?_⟩⟩
      · rw [OrderedSet.mem_insert, not_or]
        exact ⟨hnews r hr, fun h => hrow (h ▸ hr)⟩
      · rw [OrderedSet.elements_insert, if_neg hnew, List.append_assoc]
        exact hrest

/-- Rows can be deleted one after the other if all of them are there and none is to be added. -/
theorem foldlM_delete_ok_iff {s t : OrderedSet Row} {rows : List Row} (hrows : rows.Nodup) :
    rows.foldlM patch.delete s = .ok t ↔
      (∀ row ∈ rows, row ∈ s.elements ∧ row ∉ patch.added.elements) ∧
        s.elements.filter (· ∉ rows) = t.elements := by
  induction rows generalizing s with
  | nil =>
    rw [List.foldlM_nil, pure_ok_iff, OrderedSet.ext_iff]
    simp
  | cons row rows ih =>
    rw [List.nodup_cons] at hrows
    have hkept : s.elements.filter (· ∉ row :: rows) =
        (s.erase row).elements.filter (· ∉ rows) := by
      rw [OrderedSet.erase, List.filter_filter]
      refine List.filter_congr fun r _ => ?_
      simp [Bool.and_comm]
    -- Of the rows which are still to be deleted, the first deletion leaves all there.
    have hthere : ∀ r ∈ rows, (r ∈ (s.erase row).elements ↔ r ∈ s.elements) := fun r hr => by
      rw [OrderedSet.erase, List.mem_filter, and_iff_left]
      exact decide_eq_true fun h => hrows.1 (h ▸ hr)
    rw [List.foldlM_cons, bind_ok_iff, List.forall_mem_cons, hkept]
    constructor
    · rintro ⟨s', hs', h⟩
      obtain ⟨hadded, hrow, rfl⟩ := delete_ok_iff.1 hs'
      obtain ⟨hrest, ht⟩ := (ih hrows.2).1 h
      exact ⟨⟨⟨hrow, hadded⟩, fun r hr => ⟨(hthere r hr).1 (hrest r hr).1, (hrest r hr).2⟩⟩, ht⟩
    · rintro ⟨⟨⟨hrow, hadded⟩, hrest⟩, ht⟩
      exact ⟨s.erase row, delete_ok_iff.2 ⟨hadded, hrow, rfl⟩,
        (ih hrows.2).2 ⟨fun r hr => ⟨(hthere r hr).2 (hrest r hr).1, (hrest r hr).2⟩, ht⟩⟩

theorem foldlM_insertRecord_ok_iff {table : Csv.Table} {s t : OrderedSet Row}
    {body : List Csv.Cells} {n : Nat} :
    (body.zipIdx n).foldlM (insertRecord table) s = .ok t ↔
      ∃ rows, body.mapM table.row = .ok rows ∧ rows.foldlM add s = .ok t := by
  induction body generalizing s n with
  | nil =>
    simp only [List.zipIdx_nil, List.mapM_nil, pure_ok_iff]
    constructor
    · exact fun h => ⟨[], rfl, h⟩
    · rintro ⟨_, rfl, h⟩
      exact h
  | cons record body ih =>
    rw [List.zipIdx_cons, List.foldlM_cons, bind_ok_iff]
    simp only [insertRecord_ok_iff, ih, List.mapM_cons, bind_ok_iff, pure_ok_iff]
    constructor
    · rintro ⟨s', ⟨row, hrow, hs'⟩, rows, hrows, h⟩
      exact ⟨row :: rows, ⟨row, hrow, rows, hrows, rfl⟩, bind_ok_iff.2 ⟨s', hs', h⟩⟩
    · rintro ⟨_, ⟨row, hrow, rows, hrows, rfl⟩, h⟩
      obtain ⟨s', hs', h⟩ := bind_ok_iff.1 h
      exact ⟨s', ⟨row, hrow, hs'⟩, rows, hrows, h⟩

/-- The rows of a file are those of its records if these are distinct. -/
theorem rowsOf_ok_iff {table : Csv.Table} {t : OrderedSet Row} :
    rowsOf table = .ok t ↔ table.body.mapM table.row = .ok t.elements := by
  rw [rowsOf, foldlM_insertRecord_ok_iff]
  simp only [foldlM_add_ok_iff, OrderedSet.elements_empty, List.nil_append]
  constructor
  · rintro ⟨_, hrows, -, -, rfl⟩
    exact hrows
  · exact fun hrows => ⟨t.elements, hrows, t.nodup, fun _ _ => List.not_mem_nil, rfl⟩

/-- The rows of a patched table are the outcome of the patch, if it can be applied. -/
theorem apply_ok_iff {s t : OrderedSet Row} :
    patch.apply s = .ok t ↔
      (∀ row ∈ patch.deleted.elements, row ∈ s.elements ∧ row ∉ patch.added.elements) ∧
        (∀ row ∈ patch.added.elements, row ∉ s.elements) ∧
          patch.outcome s.elements = t.elements := by
  rw [apply, bind_ok_iff, outcome_eq]
  simp only [foldlM_delete_ok_iff patch.deleted.nodup, foldlM_add_ok_iff]
  -- A row to add is not among those which stay exactly if it was not there: it is not deleted.
  have hnew (hdeleted : ∀ row ∈ patch.deleted.elements, row ∈ s.elements ∧
        row ∉ patch.added.elements) : ∀ row ∈ patch.added.elements,
      (row ∉ s.elements.filter (· ∉ patch.deleted.elements) ↔ row ∉ s.elements) := by
    intro row hrow
    have hstays : row ∉ patch.deleted.elements := fun h => (hdeleted row h).2 hrow
    simp [hstays]
  constructor
  · rintro ⟨s', ⟨hdeleted, hs'⟩, -, hadded, ht⟩
    rw [← hs'] at hadded ht
    exact ⟨hdeleted, fun row hrow => (hnew hdeleted row hrow).1 (hadded row hrow), ht⟩
  · rintro ⟨hdeleted, hadded, ht⟩
    exact ⟨⟨_, s.nodup.filter _⟩, ⟨hdeleted, rfl⟩, patch.added.nodup,
      fun row hrow => (hnew hdeleted row hrow).2 (hadded row hrow), ht⟩

/-- Records follow each other with the same number of cells if all have as many as the first. -/
theorem checkWidths_ok_iff {header : Row} {rows : List Row} :
    Csv.checkWidths (header :: rows) = .ok () ↔ ∀ row ∈ rows, row.length = header.length := by
  induction rows generalizing header with
  | nil => exact ⟨fun _ _ h => absurd h List.not_mem_nil, fun _ => rfl⟩
  | cons row rows ih =>
    rw [Csv.checkWidths, List.forall_mem_cons]
    split
    · next h => rw [ih, ← h, and_iff_right rfl]
    · next h => simp [Ne.symm h]

/-! ## Patched texts -/

namespace Fits

variable {header : Row} {rows : List Row} (h : patch.Fits header rows)
include h

/-- The rows of the patched table are distinct. -/
theorem nodup_outcome : (patch.outcome rows).Nodup := by
  rw [outcome_eq, List.nodup_append]
  refine ⟨h.nodup.filter _, patch.added.nodup, fun row hrow row' hrow' heq => ?_⟩
  exact (h.addable row' hrow').1 (heq ▸ List.mem_of_mem_filter hrow)

/-- They have a cell for every column. -/
theorem length_eq_of_mem_outcome (hwidth : ∀ row ∈ rows, row.length = header.length) {row : Row}
    (hrow : row ∈ patch.outcome rows) : row.length = header.length := by
  rcases List.mem_append.1 hrow with hrow | hrow
  · exact hwidth row (List.mem_of_mem_filter hrow)
  · exact (h.addable row hrow).2

end Fits

variable {base text : String}

/-- A text which can be patched is a table. -/
theorem exists_reads_of_patchText (h : patch.patchText base = .ok text) :
    ∃ header rows, Reads base header rows := by
  obtain ⟨header, hheader⟩ := Csv.exists_header base
  rw [patchText, seq_ok_iff] at h
  obtain ⟨rows, hrows, -⟩ := bind_ok_iff.1 h.2
  exact ⟨header, rows.elements, hheader, rowsOf_ok_iff.1 hrows⟩

/-- A table can be patched if the patch fits it. -/
theorem patchText_ok_iff {header : Row} {rows : List Row} (hbase : Reads base header rows) :
    patch.patchText base = .ok text ↔
      patch.Fits header rows ∧ Csv.write (header :: patch.outcome rows) = text := by
  rw [patchText, hbase.header, Option.getD_some, seq_ok_iff, checkHeader_ok_iff, bind_ok_iff]
  constructor
  · rintro ⟨hexpected, s, hs, h⟩
    obtain ⟨t, ht, h⟩ := bind_ok_iff.1 h
    rw [rowsOf_ok_iff, hbase.rows, Except.ok.injEq] at hs
    rw [apply_ok_iff, ← hs] at ht
    obtain ⟨hdeletable, hadded, ht⟩ := ht
    rw [seq_ok_iff, mapError_ok_iff, checkWidths_ok_iff, pure_ok_iff, ← ht] at h
    refine ⟨⟨hexpected, hs ▸ s.nodup, hdeletable, fun row hrow => ⟨hadded row hrow, ?_⟩⟩, h.2⟩
    exact h.1 row (List.mem_append_right _ hrow)
  · rintro ⟨hfits, htext⟩
    refine ⟨hfits.expected, ⟨rows, hfits.nodup⟩, rowsOf_ok_iff.2 hbase.rows, bind_ok_iff.2 ?_⟩
    refine ⟨⟨patch.outcome rows, hfits.nodup_outcome⟩, apply_ok_iff.2
      ⟨hfits.deletable, fun row hrow => (hfits.addable row hrow).1, rfl⟩, ?_⟩
    rw [seq_ok_iff, mapError_ok_iff, checkWidths_ok_iff, pure_ok_iff]
    exact ⟨fun row => hfits.length_eq_of_mem_outcome fun _ => hbase.length_eq, htext⟩

/-- A patch can be applied to a table exactly if it fits it, and then the patched text holds the
    rows which are not deleted, in their order, and after them the added ones, in the order in which
    they were first given. -/
theorem patchText_effect {header : Row} {rows : List Row} (hbase : Reads base header rows)
    (patch : FilePatch) :
    ((∃ text, patch.patchText base = .ok text) ↔ patch.Fits header rows) ∧
    (∀ text, patch.patchText base = .ok text → text = Csv.write (header ::
      (rows.filter (· ∉ patch.deleted.elements) ++ patch.added.elements))) ∧
    ∀ fileName changes, ofChanges fileName changes = .ok patch →
      patch.added.elements = (changes.flatMap Change.added).eraseDups ∧
      ∀ row, row ∈ patch.deleted.elements ↔ row ∈ changes.flatMap Change.deleted := by
  refine ⟨⟨?_, ?_⟩, ?_, ?_⟩
  · rintro ⟨text, htext⟩
    exact ((patchText_ok_iff hbase).1 htext).1
  · exact fun hfits => ⟨_, (patchText_ok_iff hbase).2 ⟨hfits, rfl⟩⟩
  · intro text htext
    rw [← outcome_eq]
    exact ((patchText_ok_iff hbase).1 htext).2.symm
  · intro fileName changes hpatch
    obtain ⟨hadded, hdeleted⟩ := rows_of_ofChanges hpatch
    refine ⟨?_, fun row => ?_⟩
    · rw [hadded, OrderedSet.elements_ofList]
    · rw [hdeleted, OrderedSet.mem_ofList]

/-- A text which says where some entities are. -/
def entityZones : String := "entity,zone\nwind,north\ngas_ct,south\nsolar,south\n"

theorem reads_entityZones : Reads entityZones ["entity", "zone"]
    [["wind", "north"], ["gas_ct", "south"], ["solar", "south"]] :=
  ⟨by decide, by decide⟩

/-- A patch which replaces one of them. -/
def entityZonesPatch : FilePatch where
  fileName := "entity_zones.csv"
  header := some ["entity", "zone"]
  deleted := .ofList [["gas_ct", "south"]]
  added := .ofList [["nuclear", "north"]]

theorem ofChanges_entityZones : ofChanges "entity_zones.csv"
    [.header "entity, zone", .delete "gas_ct,south", .add "nuclear, north"] =
      .ok entityZonesPatch := rfl

/-- The patch fits the text, and the row it adds takes its place at the end. -/
theorem patchText_effect_entityZones : entityZonesPatch.patchText entityZones =
    .ok "entity,zone\nwind,north\nsolar,south\nnuclear,north\n" := by
  obtain ⟨hiff, htext, -⟩ := patchText_effect reads_entityZones entityZonesPatch
  have hfits : entityZonesPatch.Fits ["entity", "zone"]
      [["wind", "north"], ["gas_ct", "south"], ["solar", "south"]] :=
    ⟨by decide, by decide, by decide, by decide⟩
  obtain ⟨text, h⟩ := hiff.2 hfits
  have hwritten : text = "entity,zone\nwind,north\nsolar,south\nnuclear,north\n" :=
    (htext text h).trans (by decide)
  rw [h, hwritten]

end FilePatch

end CapacityExpansion.Patch
