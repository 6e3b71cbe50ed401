import CapacityExpansion.Proofs.Store.Loading
import CapacityExpansion.Temporal.Resolution

/-!
# Temporal rows and the fragments they belong to

Each of the seven temporal files holds the rows of one kind for all fragments,
and the files are read one after the other into the same tables. A record of a
file adds its row behind those of the same kind in the tables of its fragment.
It leaves the rows of other kinds alone, and the tables of other fragments.

So what a fragment is after all files have been read depends on its own rows and
on their order in each of the files, and on nothing else: neither on the rows
around them nor on what these say.

* `RowKind`: the kinds of rows, with their files;
* `rows_addRows`, `rows_addRows_of_ne`, `contains_addRows_iff`: what the records
  of one file do;
* `loadTemporal_ok_iff`: the tables are those of the records of all files;
* `loadTemporal_grouped`: fragments have their own rows, whatever the others are.
-/

namespace CapacityExpansion.Temporal

/-! ## Kinds of rows -/

/-- A kind of temporal rows. There is a file for each. -/
inductive RowKind where
  | periods
  | subproblems
  | stages
  | timepoints
  | horizons
  | members
  | spans
  deriving DecidableEq, Repr

namespace RowKind

/-- All kinds of rows, in the order in which their files are read. -/
def all : List RowKind := [periods, subproblems, stages, timepoints, horizons, members, spans]

/-- A row of a kind. -/
abbrev Row : RowKind → Type
  | periods => Period
  | subproblems => Nat
  | stages => StageRow
  | timepoints => TimepointRow
  | horizons => HorizonRow
  | members => MemberRow
  | spans => SpanRow

/-- The rows of a kind in some tables. -/
def rows : (kind : RowKind) → Tables → List kind.Row
  | periods => Tables.periods
  | subproblems => Tables.subproblems
  | stages => Tables.stages
  | timepoints => Tables.timepoints
  | horizons => Tables.horizons
  | members => Tables.members
  | spans => Tables.spans

/-- The file with the rows of a kind. -/
def file : RowKind → TableFile
  | periods => .periods
  | subproblems => .subproblems
  | stages => .stages
  | timepoints => .timepoints
  | horizons => .horizons
  | members => .members
  | spans => .spans

/-- A record of the file with the rows of a kind. -/
abbrev Record (kind : RowKind) : Type := Csv.Row kind.file.fullSchema.columns

/-- The fragment which a record belongs to. -/
def owner (kind : RowKind) (record : kind.Record) : Nat := record.1

/-- The row which a record stands for. -/
def rowOf : (kind : RowKind) → kind.Record → kind.Row
  | periods, (_, id, discountFactor, yearsRepresented, ()) => { id, discountFactor, yearsRepresented }
  | subproblems, (_, id, ()) => id
  | stages, (_, subproblem, stage, name, ()) => { subproblem, stage, name }
  | timepoints,
      (_, subproblem, stage, id, period, hours, weight, linkedIndex, month, hourOfDay, ()) =>
    { subproblem, stage, timepoint := { id, period, hours, weight, linkedIndex, month, hourOfDay } }
  | horizons, (_, subproblem, balancingType, horizon, boundary, ()) =>
    { subproblem, balancingType, horizon, boundary }
  | members, (_, subproblem, stage, timepoint, balancingType, horizon, ()) =>
    { subproblem, stage, timepoint, balancingType, horizon }
  | spans, (_, subproblem, stage, balancingType, horizon, first, last, ()) =>
    { subproblem, stage, balancingType, horizon, first, last }

/-- The rows of a fragment among the records of a file, in their order. -/
def rowsOf (kind : RowKind) (fragment : Nat) (records : List kind.Record) : List kind.Row :=
  (records.filter (kind.owner · == fragment)).map kind.rowOf

theorem mem_all (kind : RowKind) : kind ∈ all := by cases kind <;> decide

theorem nodup_all : all.Nodup := by decide

/-- Tables are determined by their rows of all kinds. -/
theorem ext_rows {t t' : Tables} (h : ∀ kind : RowKind, kind.rows t = kind.rows t') : t = t' := by
  obtain ⟨⟩ := t
  obtain ⟨⟩ := t'
  rw [Tables.mk.injEq]
  exact ⟨h periods, h subproblems, h stages, h timepoints, h horizons, h members, h spans⟩

/-- A record adds its row behind the rows of the same kind. -/
theorem rows_add (kind : RowKind) (record : kind.Record) (t : Tables) :
    kind.rows (kind.file.add record.2 t) = kind.rows t ++ [kind.rowOf record] := by
  cases kind with
  | subproblems => exact List.concat_eq_append
  | _ => rfl

/-- A record leaves the rows of other kinds alone. -/
theorem rows_add_of_ne {kind other : RowKind} (h : other ≠ kind) (record : kind.Record)
    (t : Tables) : other.rows (kind.file.add record.2 t) = other.rows t := by
  cases kind <;> cases other <;> first | exact absurd rfl h | rfl

theorem rowsOf_cons (kind : RowKind) (fragment : Nat) (record : kind.Record)
    (records : List kind.Record) :
    kind.rowsOf fragment (record :: records) =
      if kind.owner record = fragment then kind.rowOf record :: kind.rowsOf fragment records
      else kind.rowsOf fragment records := by
  simp only [rowsOf, List.filter_cons, beq_iff_eq]
  split <;> rfl

end RowKind

/-! ## The records of one file -/

/-- The tables of a fragment; they are empty if there is no row for it. -/
def tablesOf (tables : OrderedMap Nat Tables) (fragment : Nat) : Tables :=
  (tables.get? fragment).getD .empty

section AddRows

variable (kind : RowKind) (tables : OrderedMap Nat Tables)

/-- The tables of all fragments with one more record of a file. -/
def RowKind.addRecord (record : kind.Record) : OrderedMap Nat Tables :=
  tables.upsert (kind.owner record) .empty (kind.file.add record.2)

theorem addRows_cons (record : kind.Record) (records : List kind.Record) :
    kind.file.addRows tables (record :: records) =
      kind.file.addRows (kind.addRecord tables record) records := rfl

/-- A record changes the tables of its fragment only. -/
theorem tablesOf_addRecord (record : kind.Record) (fragment : Nat) :
    tablesOf (kind.addRecord tables record) fragment =
      if fragment = kind.owner record then kind.file.add record.2 (tablesOf tables fragment)
      else tablesOf tables fragment := by
  rw [tablesOf, RowKind.addRecord, OrderedMap.get?_upsert]
  split <;> rfl

theorem contains_addRecord_iff (record : kind.Record) (fragment : Nat) :
    (kind.addRecord tables record).contains fragment ↔
      tables.contains fragment ∨ kind.owner record = fragment := by
  rw [OrderedMap.contains, RowKind.addRecord, OrderedMap.get?_upsert]
  split
  · next h => exact ⟨fun _ => .inr h.symm, fun _ => rfl⟩
  · next h => exact (or_iff_left fun e => h e.symm).symm

/-- The records of a file add the rows of each fragment behind those it has. -/
theorem rows_addRows (records : List kind.Record) (fragment : Nat) :
    kind.rows (tablesOf (kind.file.addRows tables records) fragment) =
      kind.rows (tablesOf tables fragment) ++ kind.rowsOf fragment records := by
  induction records generalizing tables with
  | nil => exact (List.append_nil _).symm
  | cons record records ih =>
    rw [addRows_cons, ih, tablesOf_addRecord, RowKind.rowsOf_cons]
    by_cases h : fragment = kind.owner record
    · rw [if_pos h, if_pos h.symm, RowKind.rows_add, List.append_assoc, List.singleton_append]
    · rw [if_neg h, if_neg (Ne.symm h)]

/-- They leave the rows of other kinds alone, whatever the fragment. -/
theorem rows_addRows_of_ne {other : RowKind} (hother : other ≠ kind) (records : List kind.Record)
    (fragment : Nat) :
    other.rows (tablesOf (kind.file.addRows tables records) fragment) =
      other.rows (tablesOf tables fragment) := by
  induction records generalizing tables with
  | nil => rfl
  | cons record records ih =>
    rw [addRows_cons, ih, tablesOf_addRecord]
    split
    · exact RowKind.rows_add_of_ne hother record _
    · rfl

/-- There are tables of the fragments which had some and of those which a record belongs to. -/
theorem contains_addRows_iff (records : List kind.Record) (fragment : Nat) :
    (kind.file.addRows tables records).contains fragment ↔
      tables.contains fragment ∨ ∃ record ∈ records, kind.owner record = fragment := by
  induction records generalizing tables with
  | nil => simp [TableFile.addRows]
  | cons record records ih =>
    rw [addRows_cons, ih, contains_addRecord_iff, List.exists_mem_cons_iff, or_assoc]

end AddRows

/-! ## The records of all files -/

section AllFiles

variable (records : ∀ kind : RowKind, List kind.Record)

/-- The tables of all fragments with the records of the files of some kinds. -/
def addFiles (kinds : List RowKind) (tables : OrderedMap Nat Tables) : OrderedMap Nat Tables :=
  kinds.foldl (fun tables kind => kind.file.addRows tables (records kind)) tables

/-- The tables of all fragments which the records of the seven files make. -/
def ofRecords : OrderedMap Nat Tables := addFiles records RowKind.all ∅

variable {records}

/-- Files of kinds which differ add to the rows of each kind what the file of the kind has. -/
theorem rows_addFiles {kinds : List RowKind} (hnodup : kinds.Nodup)
    (tables : OrderedMap Nat Tables) (kind : RowKind) (fragment : Nat) :
    kind.rows (tablesOf (addFiles records kinds tables) fragment) =
      kind.rows (tablesOf tables fragment) ++
        if kind ∈ kinds then kind.rowsOf fragment (records kind) else [] := by
  induction kinds generalizing tables with
  | nil => exact (List.append_nil _).symm
  | cons first kinds ih =>
    rw [List.nodup_cons] at hnodup
    rw [show addFiles records (first :: kinds) tables =
      addFiles records kinds (first.file.addRows tables (records first)) from rfl, ih hnodup.2]
    -- The file of a kind is read once, and no other file has rows of this kind.
    by_cases h : kind = first
    · subst h
      rw [rows_addRows, if_neg hnodup.1, if_pos List.mem_cons_self, List.append_nil]
    · simp only [rows_addRows_of_ne first tables h, List.mem_cons, h, false_or]

theorem contains_addFiles_iff (kinds : List RowKind) (tables : OrderedMap Nat Tables)
    (fragment : Nat) :
    (addFiles records kinds tables).contains fragment ↔ tables.contains fragment ∨
      ∃ kind ∈ kinds, ∃ record ∈ records kind, kind.owner record = fragment := by
  induction kinds generalizing tables with
  | nil => simp [addFiles]
  | cons first kinds ih =>
    rw [show addFiles records (first :: kinds) tables =
      addFiles records kinds (first.file.addRows tables (records first)) from rfl, ih,
      contains_addRows_iff, List.exists_mem_cons_iff, or_assoc]

/-- A fragment has its own rows of every file. -/
theorem rows_ofRecords (kind : RowKind) (fragment : Nat) :
    kind.rows (tablesOf (ofRecords records) fragment) = kind.rowsOf fragment (records kind) := by
  rw [ofRecords, rows_addFiles RowKind.nodup_all, if_pos kind.mem_all]
  cases kind <;> rfl

theorem contains_ofRecords_iff (fragment : Nat) :
    (ofRecords records).contains fragment ↔
      ∃ kind : RowKind, ∃ record ∈ records kind, kind.owner record = fragment := by
  rw [ofRecords, contains_addFiles_iff]
  constructor
  · intro h
    obtain ⟨kind, -, h⟩ := h.resolve_left nofun
    exact ⟨kind, h⟩
  · rintro ⟨kind, h⟩
    exact .inr ⟨kind, kind.mem_all, h⟩

end AllFiles

/-! ## What is loaded -/

/-- The records of the file of a kind in a folder. -/
def readRecords (files : Files) (folder : String) (kind : RowKind) : Attempt (List kind.Record) :=
  files.readAny (Csv.readRows kind.file.fullSchema) (Files.join folder kind.file.fileName)

section Loading

variable {files files' : Files} {folder folder' : String} {tables tables' : OrderedMap Nat Tables}

/-- The tables of all fragments with the records of the file of a kind in a folder. -/
def addFile (files : Files) (folder : String) (tables : OrderedMap Nat Tables) (kind : RowKind) :
    Attempt (OrderedMap Nat Tables) := do
  return kind.file.addRows tables (← readRecords files folder kind)

theorem loadTemporal_eq :
    Store.loadTemporal files folder = RowKind.all.foldlM (addFile files folder) ∅ := rfl

/-- If the records of some files can be read, then they are added. -/
theorem foldlM_addFile {records : ∀ kind : RowKind, List kind.Record} {kinds : List RowKind}
    (h : ∀ kind ∈ kinds, readRecords files folder kind = .ok (records kind))
    (tables : OrderedMap Nat Tables) :
    kinds.foldlM (addFile files folder) tables = .ok (addFiles records kinds tables) := by
  induction kinds generalizing tables with
  | nil => rfl
  | cons first kinds ih =>
    rw [List.forall_mem_cons] at h
    rw [List.foldlM_cons, bind_ok_iff]
    refine ⟨first.file.addRows tables (records first), ?_, ih h.2 _⟩
    rw [addFile, h.1]
    rfl

/-- If some files are added, then their records can be read. -/
theorem exists_records_of_foldlM_addFile {kinds : List RowKind}
    (h : kinds.foldlM (addFile files folder) tables = .ok tables') :
    ∀ kind ∈ kinds, ∃ records, readRecords files folder kind = .ok records := by
  induction kinds generalizing tables with
  | nil => exact fun _ hkind => absurd hkind List.not_mem_nil
  | cons first kinds ih =>
    rw [List.foldlM_cons, bind_ok_iff] at h
    obtain ⟨next, hnext, h⟩ := h
    rw [addFile, bind_ok_iff] at hnext
    obtain ⟨records, hrecords, -⟩ := hnext
    rw [List.forall_mem_cons]
    exact ⟨⟨records, hrecords⟩, ih h⟩

/-- The temporal tables are loaded if the records of all files can be read, and then they are what
    these make. -/
theorem loadTemporal_ok_iff :
    Store.loadTemporal files folder = .ok tables ↔
      ∃ records : ∀ kind : RowKind, List kind.Record,
        (∀ kind, readRecords files folder kind = .ok (records kind)) ∧
          ofRecords records = tables := by
  rw [loadTemporal_eq]
  constructor
  · intro h
    have hread (kind : RowKind) := exists_records_of_foldlM_addFile h kind kind.mem_all
    choose records hrecords using hread
    rw [foldlM_addFile fun kind _ => hrecords kind] at h
    exact ⟨records, hrecords, Except.ok.inj h⟩
  · rintro ⟨records, hrecords, rfl⟩
    exact foldlM_addFile (fun kind _ => hrecords kind) ∅

/-- The tables of a fragment are its own rows of the seven files. -/
theorem rows_of_loadTemporal (h : Store.loadTemporal files folder = .ok tables) {kind : RowKind}
    {records : List kind.Record} (hrecords : readRecords files folder kind = .ok records)
    (fragment : Nat) : kind.rows (tablesOf tables fragment) = kind.rowsOf fragment records := by
  obtain ⟨all, hall, rfl⟩ := loadTemporal_ok_iff.1 h
  rw [rows_ofRecords, Except.ok.inj ((hall kind).symm.trans hrecords)]

/-- There are tables of a fragment if and only if some record belongs to it. -/
theorem contains_loadTemporal_iff (h : Store.loadTemporal files folder = .ok tables)
    (fragment : Nat) :
    tables.contains fragment ↔ ∃ (kind : RowKind) (records : List kind.Record),
      readRecords files folder kind = .ok records ∧
        ∃ record ∈ records, kind.owner record = fragment := by
  obtain ⟨all, hall, rfl⟩ := loadTemporal_ok_iff.1 h
  rw [contains_ofRecords_iff]
  constructor
  · rintro ⟨kind, hkind⟩
    exact ⟨kind, all kind, hall kind, hkind⟩
  · rintro ⟨kind, records, hrecords, hkind⟩
    rw [← Except.ok.inj ((hall kind).symm.trans hrecords)] at hkind
    exact ⟨kind, hkind⟩

/-- The records of the files of two folders say the same about a fragment: its rows are the same
    ones, in the same order. -/
def SaySame (files : Files) (folder : String) (files' : Files) (folder' : String)
    (fragment : Nat) : Prop :=
  ∀ (kind : RowKind) (records records' : List kind.Record),
    readRecords files folder kind = .ok records → readRecords files' folder' kind = .ok records' →
      kind.rowsOf fragment records = kind.rowsOf fragment records'

/-- What is loaded of a fragment does not depend on the rows of others. -/
theorem tablesOf_congr (h : Store.loadTemporal files folder = .ok tables)
    (h' : Store.loadTemporal files' folder' = .ok tables') {fragment : Nat}
    (hsame : SaySame files folder files' folder' fragment) :
    tablesOf tables fragment = tablesOf tables' fragment := by
  obtain ⟨all, hall, -⟩ := loadTemporal_ok_iff.1 h
  obtain ⟨all', hall', -⟩ := loadTemporal_ok_iff.1 h'
  refine RowKind.ext_rows fun kind => ?_
  rw [rows_of_loadTemporal h (hall kind), rows_of_loadTemporal h' (hall' kind)]
  exact hsame kind _ _ (hall kind) (hall' kind)

end Loading

/-- The records of a file add to the tables of each fragment the rows which belong to it, in their
    order and behind those of the same kind, and they change nothing else; fragments with no row
    before have tables if a record belongs to them. When all files have been read, a fragment has
    its own rows of each of them. Hence the hierarchy of a fragment, or its first fault, is the same
    however its rows are mixed with those of other fragments, and whatever these are. -/
theorem loadTemporal_grouped :
    (∀ (kind : RowKind) (tables : OrderedMap Nat Tables) (records : List kind.Record)
        (fragment : Nat),
      let after := kind.file.addRows tables records
      kind.rows (tablesOf after fragment) =
          kind.rows (tablesOf tables fragment) ++ kind.rowsOf fragment records ∧
        (∀ other : RowKind, other ≠ kind →
          other.rows (tablesOf after fragment) = other.rows (tablesOf tables fragment)) ∧
        (after.contains fragment ↔ tables.contains fragment ∨
          ∃ record ∈ records, kind.owner record = fragment)) ∧
    (∀ files folder, (∃ tables, Store.loadTemporal files folder = .ok tables) ↔
      ∀ kind, ∃ records, readRecords files folder kind = .ok records) ∧
    (∀ files folder tables fragment, Store.loadTemporal files folder = .ok tables →
      (∀ kind records, readRecords files folder kind = .ok records →
        kind.rows (tablesOf tables fragment) = kind.rowsOf fragment records) ∧
      (tables.contains fragment ↔ ∃ kind records, readRecords files folder kind = .ok records ∧
        ∃ record ∈ records, kind.owner record = fragment)) ∧
    ∀ files folder tables files' folder' tables' fragment,
      Store.loadTemporal files folder = .ok tables →
      Store.loadTemporal files' folder' = .ok tables' →
      SaySame files folder files' folder' fragment →
      resolve fragment (tablesOf tables fragment) = resolve fragment (tablesOf tables' fragment) := by
  refine ⟨?_, ?_, ?_, ?_⟩
  · intro kind tables records fragment
    exact ⟨rows_addRows kind tables records fragment,
      fun other hother => rows_addRows_of_ne kind tables hother records fragment,
      contains_addRows_iff kind tables records fragment⟩
  · intro files folder
    constructor
    · intro ⟨tables, h⟩ kind
      obtain ⟨all, hall, -⟩ := loadTemporal_ok_iff.1 h
      exact ⟨all kind, hall kind⟩
    · intro h
      choose records hrecords using h
      exact ⟨ofRecords records, loadTemporal_ok_iff.2 ⟨records, hrecords, rfl⟩⟩
  · intro files folder tables fragment h
    exact ⟨fun kind records hrecords => rows_of_loadTemporal h hrecords fragment,
      contains_loadTemporal_iff h fragment⟩
  · intro files folder tables files' folder' tables' fragment h h' hsame
    rw [tablesOf_congr h h' hsame]

/-- Two folders with the same rows of the first fragment: in one of them they are mixed with rows of
    the second fragment, and in the other one there is a row of a third one. -/
def twoFolders : Files where
  tree := [(["mixed", "temporal_periods.csv"],
      "temporal_scenario_id,period,discount_factor,number_years_represented\n2,40,1,5\n1,30,1,2\n"),
    (["mixed", "temporal_subproblems.csv"],
      "temporal_scenario_id,subproblem_id\n1,1\n2,7\n1,2\n"),
    (["apart", "temporal_periods.csv"],
      "temporal_scenario_id,period,discount_factor,number_years_represented\n1,30,1,2\n"),
    (["apart", "temporal_subproblems.csv"],
      "temporal_scenario_id,subproblem_id\n1,1\n1,2\n3,7\n")].foldl
    (fun (tree : Files.Tree) file => tree.putFile file.1 (.text file.2)) {}

/-- The rows of the first fragment in both of them. -/
def firstRows : (kind : RowKind) → List kind.Row
  | .periods => [{ id := 30, discountFactor := 1, yearsRepresented := 2 }]
  | .subproblems => [1, 2]
  | _ => []

theorem rowsOf_mixed (kind : RowKind) :
    (readRecords twoFolders "mixed" kind).map (kind.rowsOf 1) = .ok (firstRows kind) := by
  cases kind <;> decide

theorem rowsOf_apart (kind : RowKind) :
    (readRecords twoFolders "apart" kind).map (kind.rowsOf 1) = .ok (firstRows kind) := by
  cases kind <;> decide

/-- Both folders can be loaded; the first fragment has its own rows only, and it is resolved in the
    same way. -/
theorem loadTemporal_grouped_twoFolders : ∃ tables tables',
    Store.loadTemporal twoFolders "mixed" = .ok tables ∧
    Store.loadTemporal twoFolders "apart" = .ok tables' ∧
    (∀ kind : RowKind, kind.rows (tablesOf tables 1) = firstRows kind) ∧
    resolve 1 (tablesOf tables 1) = resolve 1 (tablesOf tables' 1) := by
  obtain ⟨-, hload, hrows, hresolve⟩ := loadTemporal_grouped
  have hmixed (kind : RowKind) := map_ok_iff.1 (rowsOf_mixed kind)
  have hapart (kind : RowKind) := map_ok_iff.1 (rowsOf_apart kind)
  obtain ⟨tables, htables⟩ := (hload twoFolders "mixed").2 fun kind =>
    (hmixed kind).imp fun _ => And.left
  obtain ⟨tables', htables'⟩ := (hload twoFolders "apart").2 fun kind =>
    (hapart kind).imp fun _ => And.left
  refine ⟨tables, tables', htables, htables', fun kind => ?_,
    hresolve _ _ _ _ _ _ 1 htables htables' fun kind records records' h h' => ?_⟩
  · obtain ⟨records, h, hfirst⟩ := hmixed kind
    rw [(hrows _ _ _ 1 htables).1 kind records h, hfirst]
  · obtain ⟨_, hm, hfirst⟩ := hmixed kind
    obtain ⟨_, ha, hfirst'⟩ := hapart kind
    rw [Except.ok.inj (h.symm.trans hm), Except.ok.inj (h'.symm.trans ha), hfirst, hfirst']

end CapacityExpansion.Temporal
