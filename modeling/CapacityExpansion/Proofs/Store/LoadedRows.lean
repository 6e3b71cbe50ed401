import CapacityExpansion.Proofs.Files.Places
import CapacityExpansion.Proofs.Store.RowGroups

/-!
# Rows of loaded stores

Each part of a loaded store holds the rows of its own file. A category without
fragments has no registry, rather than one which is empty. So everything in a loaded
store is in its place, and nothing in it is empty or out of range.

* `rowsOfFile`: the rows of a file in a folder;
* `registry_of_foldlM`: the registries are those of the files;
* `Orderly`, `orderly_of_load`: what holds of every loaded store;
* `load_gathers_rows`: loaders are strict and lose nothing.
-/

namespace CapacityExpansion.Store

open Files (IsName)

/-- The rows of a file in a folder, which may be missing. -/
def rowsOfFile {α : Type} (files : Files) (folder name : String) (schema : Csv.Schema)
    (ofRow : Csv.Row schema.columns → α) : Attempt (List α) :=
  (files.readAny (Csv.readRows schema) (Files.join folder name)).map (List.map ofRow)

section Loading

variable {files : Files} {folder : String} {store : Store}

/-- A file is loaded if its rows can be read and the loader takes them. -/
theorem loadFile_ok_iff {α β : Type} {name : String} {schema : Csv.Schema}
    {ofRow : Csv.Row schema.columns → α} {ofRows : List α → Except RowProblem β} {b : β} :
    loadFile files folder name schema ofRow ofRows = .ok b ↔
      ∃ rows, rowsOfFile files folder name schema ofRow = .ok rows ∧ ofRows rows = .ok b := by
  simp only [loadFile, Attempt.within, bind_ok_iff, mapError_ok_iff, rowsOfFile, map_ok_iff]
  constructor
  · rintro ⟨records, hrecords, h⟩
    exact ⟨_, ⟨records, hrecords, rfl⟩, h⟩
  · rintro ⟨_, ⟨records, hrecords, rfl⟩, h⟩
    exact ⟨records, hrecords, h⟩

/-- A file which is missing has no rows. -/
theorem exists_loadFile_of_missing {α β : Type} {name : String} {schema : Csv.Schema}
    {ofRow : Csv.Row schema.columns → α} {ofRows : List α → Except RowProblem β}
    (hmissing : files.doesExist (Files.join folder name) = false)
    (hnil : ∃ b, ofRows [] = .ok b) :
    ∃ b, loadFile files folder name schema ofRow ofRows = .ok b := by
  obtain ⟨b, hb⟩ := hnil
  refine ⟨b, loadFile_ok_iff.2 ⟨[], ?_, hb⟩⟩
  rw [rowsOfFile, Files.readAny, hmissing]
  rfl

/-! ## Registries -/

section Registries

variable {κ ι : Type} [DecidableEq κ] {loadOne : κ → Attempt (OrderedMap ι Fragment)}
  {keys : List κ} {before after : OrderedMap κ (OrderedMap ι Fragment)}

/-- The registries with one more, unless it is empty. -/
def addRegistry (loadOne : κ → Attempt (OrderedMap ι Fragment))
    (registries : OrderedMap κ (OrderedMap ι Fragment)) (key : κ) :
    Attempt (OrderedMap κ (OrderedMap ι Fragment)) := do
  let registry ← loadOne key
  return if registry.isEmpty then registries else registries.insert key registry

theorem addRegistry_ok_iff {key : κ} : addRegistry loadOne before key = .ok after ↔
    ∃ registry, loadOne key = .ok registry ∧
      (if registry.isEmpty then before else before.insert key registry) = after := by
  rw [addRegistry, bind_ok_iff]
  simp only [pure_ok_iff]

/-- Each key has the registry which is loaded for it, the empty one if there is none. -/
theorem registry_of_foldlM (hnodup : keys.Nodup) (hnew : ∀ key ∈ keys, before.get? key = none)
    (hok : keys.foldlM (addRegistry loadOne) before = .ok after) :
    (∀ key ∈ keys, loadOne key = .ok ((after.get? key).getD ∅)) ∧
      ∀ key, key ∉ keys → after.get? key = before.get? key := by
  induction keys generalizing before with
  | nil =>
    cases hok
    exact ⟨nofun, fun _ _ => rfl⟩
  | cons first keys ih =>
    rw [List.nodup_cons] at hnodup
    rw [List.forall_mem_cons] at hnew
    rw [List.foldlM_cons, bind_ok_iff] at hok
    obtain ⟨next, hnext, hok⟩ := hok
    obtain ⟨registry, hregistry, hnext⟩ := addRegistry_ok_iff.1 hnext
    have hother : ∀ key, key ≠ first → next.get? key = before.get? key := by
      intro key hkey
      rw [← hnext]
      split
      · rfl
      · exact OrderedMap.get?_insert_of_ne before hkey registry
    -- A registry which is not put into the map is empty, and so is what is found in its place.
    have hfirst : (next.get? first).getD ∅ = registry := by
      rw [← hnext]
      split
      · next hempty =>
        rw [hnew.1, Option.getD_none]
        exact OrderedMap.ext (List.isEmpty_iff.1 hempty).symm
      · rw [OrderedMap.get?_insert_self, Option.getD_some]
    have hnew' : ∀ key ∈ keys, next.get? key = none := fun key hkey => by
      rw [hother key fun e => hnodup.1 (e ▸ hkey), hnew.2 key hkey]
    obtain ⟨hloaded, hkept⟩ := ih hnodup.2 hnew' hok
    constructor
    · rw [List.forall_mem_cons]
      refine ⟨?_, hloaded⟩
      rw [hkept first hnodup.1, hfirst, hregistry]
    · intro key hkey
      rw [List.mem_cons, not_or] at hkey
      rw [hkept key hkey.2, hother key hkey.1]

/-- The registries can be loaded if each one can. -/
theorem exists_foldlM_addRegistry_iff :
    (∃ after, keys.foldlM (addRegistry loadOne) before = .ok after) ↔
      ∀ key ∈ keys, ∃ registry, loadOne key = .ok registry := by
  induction keys generalizing before with
  | nil => exact ⟨fun _ => nofun, fun _ => ⟨before, rfl⟩⟩
  | cons first keys ih =>
    simp only [List.foldlM_cons, bind_ok_iff, addRegistry_ok_iff, List.forall_mem_cons]
    constructor
    · rintro ⟨after, next, ⟨registry, hregistry, -⟩, hrest⟩
      exact ⟨⟨registry, hregistry⟩, ih.1 ⟨after, hrest⟩⟩
    · rintro ⟨⟨registry, hregistry⟩, hkeys⟩
      obtain ⟨after, hafter⟩ := ih.2 hkeys
      exact ⟨after, _, ⟨registry, hregistry, rfl⟩, hafter⟩

/-- No registry is empty. -/
theorem forall_isEmpty_of_foldlM (hok : keys.foldlM (addRegistry loadOne) ∅ = .ok after) :
    ∀ registry ∈ after.entries, registry.2.isEmpty = false := by
  refine foldlM_invariant (fun registries => ∀ registry ∈ registries.entries,
    registry.2.isEmpty = false) (fun before hbefore key _ after hafter => ?_)
    OrderedMap.forall_entries_empty hok
  obtain ⟨registry, -, rfl⟩ := addRegistry_ok_iff.1 hafter
  split
  · exact hbefore
  · next hempty =>
    exact OrderedMap.forall_entries_insert
      (fun _ (registry : OrderedMap ι Fragment) => registry.isEmpty = false) hbefore
      (Bool.eq_false_iff.2 hempty)

end Registries

/-! ## Loaded stores -/

/-- Everything in the store is in its place, nothing in it is empty, and no number is out of
    range. -/
structure Orderly (store : Store) : Prop where
  fragments : ∀ registry ∈ store.fragments.entries, registry.2.isEmpty = false ∧
    ∀ entry ∈ registry.2.entries, entry.2.id = entry.1 ∧ entry.2.name ≠ ""
  members : ∀ fragment ∈ store.members.entries,
    fragment.2.elements ≠ [] ∧ "" ∉ fragment.2.elements
  zones : ∀ fragment ∈ store.zones.entries, fragment.2.isEmpty = false ∧
    ∀ entry ∈ fragment.2.entries, entry.1 ≠ "" ∧ entry.2.elements ≠ [] ∧ "" ∉ entry.2.elements
  operationalChars : ∀ fragment ∈ store.operationalChars.entries, fragment.2.isEmpty = false ∧
    ∀ entry ∈ fragment.2.entries, entry.2.project = entry.1 ∧ entry.2.operationalType ≠ ""
  projectFragments : ∀ registry ∈ store.projectFragments.entries, registry.2.isEmpty = false ∧
    ∀ entry ∈ registry.2.entries, entry.2.id = entry.1.2
  heatRateCurves : ∀ curve ∈ store.heatRateCurves.entries, curve.2 ≠ [] ∧
    ∀ point ∈ curve.2, (0 < point.loadFraction ∧ point.loadFraction ≤ 1) ∧
      point.heatRate.isFinite = true ∧ 0 < point.heatRate

/-- The parts of a store but for its temporal tables hold the rows of the files in a folder. -/
structure HoldsFiles (files : Files) (folder : String) (store : Store) : Prop where
  fragments : ∀ category : Category, ∃ rows,
    rowsOfFile files folder (registryFile category.name) fragmentSchema fragmentOfRow = .ok rows ∧
      HoldsFragments rows (store.registry category)
  members : ∃ rows, rowsOfFile files folder membersFile memberSchema memberOfRow = .ok rows ∧
    HoldsMembers rows store.members
  zones : ∃ rows, rowsOfFile files folder zonesFile zoneSchema zoneOfRow = .ok rows ∧
    HoldsZoneMaps rows store.zones
  operationalChars : ∃ rows,
    rowsOfFile files folder charsFile charsSchema charsOfRow = .ok rows ∧
      HoldsChars rows store.operationalChars
  projectFragments : ∀ category : ProjectCategory, ∃ rows,
    rowsOfFile files folder (registryFile category.title) projectFragmentSchema
        projectFragmentOfRow = .ok rows ∧
      HoldsProjectFragments rows ((store.projectFragments.get? category).getD ∅)
  heatRateCurves : ∃ rows, rowsOfFile files folder curvesFile curveSchema curveOfRow = .ok rows ∧
    HoldsCurves rows store.heatRateCurves

/-- What is loaded from a file holds its rows. -/
theorem exists_held_of_loadFile {α β : Type} {name : String} {schema : Csv.Schema}
    {ofRow : Csv.Row schema.columns → α} {ofRows : List α → Except RowProblem β}
    {accepted : List α → Prop} {holds : List α → β → Prop} (h : Gathers ofRows accepted holds) {b : β}
    (hok : loadFile files folder name schema ofRow ofRows = .ok b) :
    ∃ rows, rowsOfFile files folder name schema ofRow = .ok rows ∧ holds rows b := by
  obtain ⟨rows, hrows, hb⟩ := loadFile_ok_iff.1 hok
  exact ⟨rows, hrows, h.makes rows b hb⟩

/-- A loaded store holds the rows of its files. -/
theorem holdsFiles_of_load (hok : load files folder = .ok store) : HoldsFiles files folder store := by
  simp only [load, bind_ok_iff, pure_ok_iff] at hok
  obtain ⟨_, hfragments, _, hmembers, _, hzones, _, hchars, _, hproject, _, hcurves, _, -, rfl⟩ := hok
  exact {
    fragments := fun category => exists_held_of_loadFile gathers_fragmentsOfRows
      ((registry_of_foldlM Category.nodup_all (fun _ _ => rfl) hfragments).1 category
        (Category.mem_all category))
    members := exists_held_of_loadFile gathers_membersOfRows hmembers
    zones := exists_held_of_loadFile gathers_zonesOfRows hzones
    operationalChars := exists_held_of_loadFile gathers_charsOfRows hchars
    projectFragments := fun category => exists_held_of_loadFile gathers_projectFragmentsOfRows
      ((registry_of_foldlM (by decide) (fun _ _ => rfl) hproject).1 category
        (ProjectCategory.mem_all category))
    heatRateCurves := exists_held_of_loadFile gathers_curvesOfRows hcurves }

/-- A loaded store is orderly. -/
theorem orderly_of_load (hok : load files folder = .ok store) : store.Orderly := by
  obtain ⟨hfragments, ⟨_, hmembers⟩, ⟨_, hzones⟩, ⟨_, hchars⟩, hproject, ⟨_, hcurves⟩⟩ :=
    madeOfRows_of_load hok
  simp only [load, bind_ok_iff, pure_ok_iff] at hok
  obtain ⟨_, hregistries, _, -, _, -, _, -, _, hregistries', _, -, _, -, rfl⟩ := hok
  exact {
    fragments := fun registry hmem => ⟨forall_isEmpty_of_foldlM hregistries registry hmem, by
      obtain ⟨rows, hrows⟩ := hfragments registry hmem
      exact forall_entry_of_fragmentsOfRows hrows⟩
    members := forall_entry_of_membersOfRows hmembers
    zones := forall_entry_of_zonesOfRows hzones
    operationalChars := forall_entry_of_charsOfRows hchars
    projectFragments := fun registry hmem => ⟨forall_isEmpty_of_foldlM hregistries' registry hmem, by
      obtain ⟨rows, hrows⟩ := hproject registry hmem
      exact forall_entry_of_projectFragmentsOfRows hrows⟩
    heatRateCurves := forall_entry_of_curvesOfRows hcurves }

/-- A store can be loaded if each of its files can. -/
theorem exists_load_iff : (∃ store, load files folder = .ok store) ↔
    (∀ category : Category, ∃ registry, loadFile files folder (registryFile category.name)
      fragmentSchema fragmentOfRow fragmentsOfRows = .ok registry) ∧
    (∃ members, loadFile files folder membersFile memberSchema memberOfRow membersOfRows =
      .ok members) ∧
    (∃ zones, loadFile files folder zonesFile zoneSchema zoneOfRow zonesOfRows = .ok zones) ∧
    (∃ all, loadFile files folder charsFile charsSchema charsOfRow charsOfRows = .ok all) ∧
    (∀ category : ProjectCategory, ∃ registry, loadFile files folder (registryFile category.title)
      projectFragmentSchema projectFragmentOfRow projectFragmentsOfRows = .ok registry) ∧
    (∃ curves, loadFile files folder curvesFile curveSchema curveOfRow curvesOfRows =
      .ok curves) ∧
    ∃ tables, loadTemporal files folder = .ok tables := by
  have hregistries : (∃ registries, loadRegistries files folder = .ok registries) ↔ _ :=
    exists_foldlM_addRegistry_iff
  have hproject : (∃ registries, loadProjectRegistries files folder = .ok registries) ↔ _ :=
    exists_foldlM_addRegistry_iff
  simp only [Category.mem_all, ProjectCategory.mem_all, true_imp_iff] at hregistries hproject
  rw [← hregistries, ← hproject]
  simp only [load, bind_ok_iff, pure_ok_iff]
  constructor
  · rintro ⟨_, a, ha, b, hb, c, hc, d, hd, e, he, f, hf, t, ht, -⟩
    exact ⟨⟨a, ha⟩, ⟨b, hb⟩, ⟨c, hc⟩, ⟨d, hd⟩, ⟨e, he⟩, ⟨f, hf⟩, t, ht⟩
  · rintro ⟨⟨a, ha⟩, ⟨b, hb⟩, ⟨c, hc⟩, ⟨d, hd⟩, ⟨e, he⟩, ⟨f, hf⟩, t, ht⟩
    exact ⟨_, a, ha, b, hb, c, hc, d, hd, e, he, f, hf, t, ht, rfl⟩

end Loading

/-- The loaders are strict and lose nothing. Fragments are taken if they have names and their
    identifiers are distinct; members and zones if no name is empty and no row is repeated;
    operational characteristics if they have a type and there is one row for each project of a
    fragment; project fragments if there is one row for each identifier of a project; points of
    curves if their numbers are in range. What is made of the rows which are taken holds each of
    them under its own key, in their order, and it has no key without rows. So each part of a loaded
    store holds the rows of its own file, and everything in it is in its place. -/
theorem load_gathers_rows :
    Gathers fragmentsOfRows
      (fun rows => (∀ row ∈ rows, row.name ≠ "") ∧ (rows.map Fragment.id).Nodup)
      HoldsFragments ∧
    Gathers membersOfRows
      (fun rows => (∀ row ∈ rows, row.entity ≠ "") ∧
        (rows.map fun row => (row.selector, row.entity)).Nodup)
      HoldsMembers ∧
    Gathers zonesOfRows
      (fun rows => (∀ row ∈ rows, row.entity ≠ "" ∧ row.zone ≠ "") ∧
        (rows.map fun row => (row.selector, row.entity, row.zone)).Nodup)
      HoldsZoneMaps ∧
    Gathers charsOfRows
      (fun rows => (∀ row ∈ rows, row.chars.operationalType ≠ "") ∧
        (rows.map fun row => (row.fragment, row.chars.project)).Nodup)
      HoldsChars ∧
    Gathers projectFragmentsOfRows
      (fun rows => (rows.map fun row => (row.project, row.fragment.id)).Nodup)
      HoldsProjectFragments ∧
    Gathers curvesOfRows
      (fun rows => ∀ row ∈ rows, (0 < row.point.loadFraction ∧ row.point.loadFraction ≤ 1) ∧
        row.point.heatRate.isFinite = true ∧ 0 < row.point.heatRate)
      HoldsCurves ∧
    (∀ rows registry, fragmentsOfRows rows = .ok registry →
      ∀ row ∈ rows, registry.get? row.id = some row) ∧
    (∀ rows all, charsOfRows rows = .ok all →
      ∀ row ∈ rows, ∃ projects, all.get? row.fragment = some projects ∧
        projects.get? row.chars.project = some row.chars) ∧
    ∀ files folder store, load files folder = .ok store →
      HoldsFiles files folder store ∧ store.Orderly :=
  ⟨gathers_fragmentsOfRows, gathers_membersOfRows, gathers_zonesOfRows, gathers_charsOfRows,
    gathers_projectFragmentsOfRows, gathers_curvesOfRows,
    fun rows registry h _ hrow => (gathers_fragmentsOfRows.makes rows registry h).get?_eq hrow,
    fun rows all h _ hrow => (gathers_charsOfRows.makes rows all h).exists_get? hrow,
    fun _ _ _ h => ⟨holdsFiles_of_load h, orderly_of_load h⟩⟩

/-- A folder with the members of two fragments, and no other file. -/
def membersOnly : Files where
  tree := (({} : Files.Tree).put ["store"] .folder).put ["store", membersFile]
    (.file (.text "category,subscenario_id,entity\nload,2,north\nload,1,north\nload,2,south\n"))

theorem doesExist_membersOnly {name : String} (hname : IsName name) (hne : name ≠ membersFile) :
    membersOnly.doesExist (Files.join "store" name) = false := by
  rw [Files.doesExist]
  rcases hfind : membersOnly.find (Files.join "store" name) with problem | ⟨place, node⟩
  · rfl
  · obtain ⟨hplace, hnode, -⟩ := Files.find_ok_iff.1 hfind
    have hstore : membersOnly.locate "store" = .ok ["store"] := by decide
    rw [Files.eq_of_locate_join hname hstore hplace, membersOnly, Files.Tree.node?_put,
      Files.Tree.node?_put] at hnode
    · simp [hne, Files.Tree.node?] at hnode
    all_goals exact List.cons_ne_nil _ _

/-- The registries have other names. -/
theorem isName_registryFile {registry : String} (h : '/' ∉ registry.toList) :
    IsName (registryFile registry) ∧ registryFile registry ≠ membersFile := by
  have hchars : (registryFile registry).toList =
      "subscenarios_".toList ++ registry.toList ++ ".csv".toList := by
    change ("subscenarios_" ++ registry ++ ".csv").toList = _
    rw [String.toList_append, String.toList_append]
  have hne {name : String} (hname : name.toList.head? ≠ some 's') : registryFile registry ≠ name := by
    rintro rfl
    exact hname (by rw [hchars]; rfl)
  refine ⟨⟨hne (by decide), hne (by decide), hne (by decide), ?_⟩, hne (by decide)⟩
  rw [hchars, List.mem_append, List.mem_append, not_or, not_or]
  exact ⟨⟨by decide, h⟩, by decide⟩

theorem slash_notMem_name (category : Category) : '/' ∉ category.name.toList := by
  cases category <;> rw [Category.name, String.toList_ofList] <;> decide

theorem slash_notMem_title (category : ProjectCategory) : '/' ∉ category.title.toList := by
  cases category <;> decide

/-- The folder is loaded; its store has the members of both fragments, in their order. -/
theorem load_gathers_rows_membersOnly : ∃ store, load membersOnly "store" = .ok store ∧
    HoldsMembers [⟨⟨.load, 2⟩, "north"⟩, ⟨⟨.load, 1⟩, "north"⟩, ⟨⟨.load, 2⟩, "south"⟩]
      store.members ∧
    store.Orderly := by
  obtain ⟨-, -, -, -, -, -, -, -, hload⟩ := load_gathers_rows
  have hmissing {name : String} (hname : IsName name) (hne : name ≠ membersFile) :=
    doesExist_membersOnly hname hne
  have hregistry (registry : String) (h : '/' ∉ registry.toList) :=
    hmissing (isName_registryFile h).1 (isName_registryFile h).2
  have hread : rowsOfFile membersOnly "store" membersFile memberSchema memberOfRow =
      .ok [⟨⟨.load, 2⟩, "north"⟩, ⟨⟨.load, 1⟩, "north"⟩, ⟨⟨.load, 2⟩, "south"⟩] := by
    decide
  have hloads : ∃ store, load membersOnly "store" = .ok store := by
    refine exists_load_iff.2 ⟨fun category => ?_, ⟨_, loadFile_ok_iff.2 ⟨_, hread, rfl⟩⟩, ?_, ?_,
      fun category => ?_, ?_, exists_of_isOk (by decide)⟩
    · exact exists_loadFile_of_missing (hregistry _ (slash_notMem_name category)) ⟨∅, rfl⟩
    · exact exists_loadFile_of_missing (hmissing (by decide) (by decide)) ⟨∅, rfl⟩
    · exact exists_loadFile_of_missing (hmissing (by decide) (by decide)) ⟨∅, rfl⟩
    · exact exists_loadFile_of_missing (hregistry _ (slash_notMem_title category)) ⟨∅, rfl⟩
    · exact exists_loadFile_of_missing (hmissing (by decide) (by decide)) ⟨∅, rfl⟩
  obtain ⟨store, hstore⟩ := hloads
  obtain ⟨hholds, horderly⟩ := hload _ _ _ hstore
  obtain ⟨rows, hrows, hmembers⟩ := hholds.members
  rw [← Except.ok.inj (hread.symm.trans hrows)] at hmembers
  exact ⟨store, hstore, hmembers, horderly⟩

end CapacityExpansion.Store
