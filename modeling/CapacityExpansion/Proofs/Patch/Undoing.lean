import CapacityExpansion.Proofs.Patch.Effect

/-!
# Undoing a patch

The reverse of a patch adds what the patch deletes and deletes what it adds. It
fits every table which the patch has been applied to: the rows it deletes are
there, and those it adds are not, since the patch has just seen to both. After
it, the rows are those there were at first. The deleted ones have moved to the
end, so that the text is the same only if there are none.

All of this is about rows, whereas a patch is applied to a text. The rows of a
patched text are read back as they were written because none of their cells has
blanks around it: those of the text were trimmed when it was read, and those of
the patch when it was put together.

* `FilePatch.reverse`: the patch which undoes another one;
* `reads_patchText`: a patched text is a table again;
* `Fits.reverse`: a patch which was applied can be undone;
* `patchText_reverse`: what is left when it is.
-/

namespace CapacityExpansion.Patch

open Csv (Reads Trimmed)

/-- The change which undoes a change. A header is expected before and after. -/
def Change.reverse : Change → Change
  | .header row => .header row
  | .add row => .delete row
  | .delete row => .add row

theorem trimmed_ofText (text : String) : Trimmed (Row.ofText text) := by
  intro cell hcell
  obtain ⟨piece, -, rfl⟩ := List.mem_map.1 hcell
  exact Text.trim_trim piece

namespace FilePatch

/-- The patch which undoes a patch. -/
def reverse (patch : FilePatch) : FilePatch :=
  { patch with deleted := patch.added, added := patch.deleted }

/-- The patch which changes nothing. -/
def unchanged (fileName : String) : FilePatch := { fileName }

variable {patch patch' : FilePatch}

/-! ## Putting the reverse together -/

theorem change_reverse {c : Change} (h : patch.change c = .ok patch') :
    patch.reverse.change c.reverse = .ok patch'.reverse := by
  cases c with
  | header row =>
    rw [change, withHeader] at h
    split at h
    · cases h
    · next hnone =>
      cases h
      exact if_neg hnone
  | add row | delete row =>
    cases h
    rfl

theorem foldlM_change_reverse {changes : List Change}
    (h : changes.foldlM change patch = .ok patch') :
    (changes.map Change.reverse).foldlM change patch.reverse = .ok patch'.reverse := by
  induction changes generalizing patch with
  | nil =>
    cases h
    rfl
  | cons c changes ih =>
    rw [List.foldlM_cons, bind_ok_iff] at h
    obtain ⟨next, hnext, h⟩ := h
    rw [List.map_cons, List.foldlM_cons, bind_ok_iff]
    exact ⟨next.reverse, change_reverse hnext, ih h⟩

/-- The reverse of a patch is made by the reverse changes. -/
theorem ofChanges_reverse {fileName : String} {changes : List Change}
    (h : ofChanges fileName changes = .ok patch) :
    ofChanges fileName (changes.map Change.reverse) = .ok patch.reverse :=
  foldlM_change_reverse h

/-- There are no blanks around the cells of the rows which a patch adds. -/
theorem trimmed_added {fileName : String} {changes : List Change}
    (h : ofChanges fileName changes = .ok patch) {row : Row} (hrow : row ∈ patch.added.elements) :
    Trimmed row := by
  rw [(rows_of_ofChanges h).1, OrderedSet.mem_ofList, List.mem_flatMap] at hrow
  obtain ⟨c, -, hrow⟩ := hrow
  cases c with
  | add text =>
    rw [List.mem_singleton.1 hrow]
    exact trimmed_ofText text
  | header text | delete text => cases hrow

/-! ## The rows after a patch and its reverse -/

namespace Fits

variable {header : Row} {rows : List Row} (h : patch.Fits header rows)
include h

/-- The reverse of a patch fits the patched table. -/
theorem reverse (hwidth : ∀ row ∈ rows, row.length = header.length) :
    patch.reverse.Fits header (patch.outcome rows) where
  expected := h.expected
  nodup := h.nodup_outcome
  deletable row hrow := by
    refine ⟨List.mem_append_right _ hrow, fun hdeleted => ?_⟩
    exact (h.deletable row hdeleted).2 hrow
  addable row hrow := by
    obtain ⟨hthere, hadded⟩ := h.deletable row hrow
    refine ⟨?_, hwidth row hthere⟩
    rw [outcome_eq, List.mem_append, not_or]
    exact ⟨fun hstays => of_decide_eq_true (List.mem_filter.1 hstays).2 hrow, hadded⟩

/-- After a patch and its reverse, the rows which were deleted for a while are at the end. -/
theorem outcome_reverse : patch.reverse.outcome (patch.outcome rows) =
    rows.filter (· ∉ patch.deleted.elements) ++ patch.deleted.elements := by
  have hstay : (rows.filter (· ∉ patch.deleted.elements)).filter (· ∉ patch.added.elements) =
      rows.filter (· ∉ patch.deleted.elements) := by
    rw [List.filter_eq_self]
    intro row hrow
    exact decide_eq_true fun hadded => (h.addable row hadded).1 (List.mem_of_mem_filter hrow)
  have hgo : patch.added.elements.filter (· ∉ patch.added.elements) = [] := by
    rw [List.filter_eq_nil_iff]
    intro row hrow
    simpa using hrow
  rw [outcome_eq, outcome_eq, FilePatch.reverse, List.filter_append, hstay, hgo, List.append_nil]

/-- They are the rows of the table in another order. -/
theorem perm_outcome_reverse : (patch.reverse.outcome (patch.outcome rows)).Perm rows := by
  have hdeleted : patch.deleted.elements.Perm (rows.filter (· ∈ patch.deleted.elements)) := by
    rw [List.perm_ext_iff_of_nodup patch.deleted.nodup (h.nodup.filter _)]
    intro row
    rw [List.mem_filter, decide_eq_true_eq]
    exact ⟨fun hrow => ⟨(h.deletable row hrow).1, hrow⟩, And.right⟩
  rw [h.outcome_reverse]
  refine (hdeleted.append_left _).trans (List.perm_append_comm.trans ?_)
  simpa using List.filter_append_perm (· ∈ patch.deleted.elements) rows

/-- If none were deleted, the rows are in their old order. -/
theorem outcome_reverse_of_deleted_eq_empty (hdeleted : patch.deleted = ∅) :
    patch.reverse.outcome (patch.outcome rows) = rows := by
  rw [h.outcome_reverse, hdeleted, OrderedSet.elements_empty, List.append_nil, List.filter_eq_self]
  exact fun row _ => rfl

end Fits

/-- A patch which changes nothing fits every table with distinct rows. -/
theorem fits_unchanged_iff {fileName : String} {header : Row} {rows : List Row} :
    (unchanged fileName).Fits header rows ↔ rows.Nodup := by
  constructor
  · exact fun h => h.nodup
  · intro h
    refine ⟨nofun, h, ?_, ?_⟩ <;> exact nofun

theorem outcome_unchanged (fileName : String) (rows : List Row) :
    (unchanged fileName).outcome rows = rows := by
  rw [outcome_eq, unchanged, OrderedSet.elements_empty, List.append_nil, List.filter_eq_self]
  exact fun row _ => rfl

/-! ## Patched texts -/

variable {base text name : String} {names : List String} {rows : List Row}

/-- A patched text is a table again, with the same header and the outcome of the patch. -/
theorem reads_patchText (hbase : Reads base (name :: names) rows)
    (hname : name.toList.head? ≠ some '\uFEFF')
    (hadded : ∀ row ∈ patch.added.elements, Trimmed row)
    (htext : patch.patchText base = .ok text) :
    Reads text (name :: names) (patch.outcome rows) := by
  obtain ⟨hfits, rfl⟩ := (patchText_ok_iff hbase).1 htext
  refine Csv.reads_write hname ?_ fun row =>
    hfits.length_eq_of_mem_outcome fun _ => hbase.length_eq
  rw [List.forall_mem_cons]
  refine ⟨hbase.trimmed List.mem_cons_self, fun row hrow => ?_⟩
  rcases List.mem_append.1 hrow with hrow | hrow
  · exact hbase.trimmed (List.mem_cons_of_mem _ (List.mem_of_mem_filter hrow))
  · exact hadded row hrow

/-- A patch which changes nothing gives any table with distinct rows, written anew. -/
theorem patchText_unchanged_iff {fileName : String} {header : Row}
    (hbase : Reads base header rows) :
    (unchanged fileName).patchText base = .ok text ↔
      rows.Nodup ∧ Csv.write (header :: rows) = text := by
  rw [patchText_ok_iff hbase, fits_unchanged_iff, outcome_unchanged]

/-- A patch which was applied can be undone by the reverse patch: the header is the same again and
    so are the rows, up to their order. If the patch deletes nothing then the order is also the
    same, and the text is the one which a patch gives which changes nothing. Applied twice, such a
    patch gives the same as applied once. -/
theorem patchText_reverse {fileName : String} {changes : List Change}
    (hpatch : ofChanges fileName changes = .ok patch)
    (hheader : (Csv.Table.ofSymbols base.toList).header = some (name :: names))
    (hname : name.toList.head? ≠ some '\uFEFF') (htext : patch.patchText base = .ok text) :
    (∃ undo undone,
      ofChanges fileName (changes.map Change.reverse) = .ok undo ∧
      undo.header = patch.header ∧ undo.deleted = patch.added ∧ undo.added = patch.deleted ∧
      undo.patchText text = .ok undone ∧
      (∃ rows rows', Reads base (name :: names) rows ∧ Reads undone (name :: names) rows' ∧
        rows'.Perm rows) ∧
      (patch.deleted = ∅ → (unchanged fileName).patchText base = .ok undone)) ∧
    ∀ plain, (unchanged fileName).patchText base = .ok plain →
      (unchanged fileName).patchText plain = .ok plain := by
  obtain ⟨header, rows, hbase⟩ := exists_reads_of_patchText htext
  obtain rfl : header = name :: names := by
    rw [hbase.header, Option.some.injEq] at hheader
    exact hheader
  have hfits := ((patchText_ok_iff hbase).1 htext).1
  have hwidth : ∀ row ∈ rows, row.length = (name :: names).length := fun _ => hbase.length_eq
  have hpatched := reads_patchText hbase hname (fun row => trimmed_added hpatch) htext
  have hundone := (patchText_ok_iff hpatched).2 ⟨hfits.reverse hwidth, rfl⟩
  have hreverse := ofChanges_reverse hpatch
  refine ⟨⟨patch.reverse, _, hreverse, rfl, rfl, rfl, hundone, ?_, ?_⟩, ?_⟩
  · exact ⟨rows, _, hbase,
      reads_patchText hpatched hname (fun row => trimmed_added hreverse) hundone,
      hfits.perm_outcome_reverse⟩
  · intro hdeleted
    rw [patchText_unchanged_iff hbase, hfits.outcome_reverse_of_deleted_eq_empty hdeleted]
    exact ⟨hfits.nodup, rfl⟩
  · intro plain hplain
    have hread := reads_patchText hbase hname (fun _ hrow => absurd hrow List.not_mem_nil) hplain
    rw [patchText_unchanged_iff hbase] at hplain
    rw [outcome_unchanged] at hread
    exact (patchText_unchanged_iff hread).2 hplain

/-- Undoing the replacement brings the old row back, behind the rows which stayed. -/
theorem patchText_reverse_entityZones : ∃ undone rows,
    entityZonesPatch.reverse.patchText
        "entity,zone\nwind,north\nsolar,south\nnuclear,north\n" = .ok undone ∧
      Reads undone ["entity", "zone"] rows ∧
      rows.Perm [["wind", "north"], ["gas_ct", "south"], ["solar", "south"]] := by
  have htext : entityZonesPatch.patchText entityZones =
      .ok "entity,zone\nwind,north\nsolar,south\nnuclear,north\n" := by decide
  obtain ⟨⟨undo, undone, hundo, -, -, -, hundone, ⟨rows, rows', hbase, hread, hperm⟩, -⟩, -⟩ :=
    patchText_reverse ofChanges_entityZones reads_entityZones.header (by decide) htext
  obtain rfl : entityZonesPatch.reverse = undo :=
    Except.ok.inj ((ofChanges_reverse ofChanges_entityZones).symm.trans hundo)
  rw [Except.ok.inj (hbase.rows.symm.trans reads_entityZones.rows)] at hperm
  exact ⟨undone, rows', hundone, hread, hperm⟩

end FilePatch

end CapacityExpansion.Patch
