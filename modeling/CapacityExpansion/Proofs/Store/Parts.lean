import CapacityExpansion.Assembly.Basic
import CapacityExpansion.Proofs.Files.Growing
import CapacityExpansion.Proofs.Store.LoadedRows
import CapacityExpansion.Proofs.Store.TemporalRows
import CapacityExpansion.Scenario.Loading

/-!
# A store, file by file

A store is loaded from files with fixed names, and nothing else in the folder matters.
If each of them says the same in two folders, or is missing in both, then the same store
is loaded from both. A folder which has come to the place of a missing file holds no rows
and makes no difference either.

* `fileNames`: the names of the files;
* `load_of_sameAt`: the same files make the same store;
* `load_of_parts`: the store which the files make, each one by itself;
* `load_zonedFiles`: a store of two projects, and what is loaded;
* `exists_scenarios_zonedFiles`: its two scenarios.
-/

namespace CapacityExpansion

/-- Steps which do the same to all elements of a list do the same to the list. -/
theorem foldlM_congr {α β ε : Type} {step step' : β → α → Except ε β} {l : List α}
    (h : ∀ a ∈ l, ∀ b, step b a = step' b a) (b : β) : l.foldlM step b = l.foldlM step' b := by
  induction l generalizing b with
  | nil => rfl
  | cons a l ih =>
    rw [List.forall_mem_cons] at h
    rw [List.foldlM_cons, List.foldlM_cons, h.1]
    exact congrArg _ (funext fun next => ih h.2 next)

namespace Store

/-- The names of the files of a store. -/
def fileNames : List String :=
  Category.all.map (fun category => registryFile category.name) ++
    ProjectCategory.all.map (fun category => registryFile category.title) ++
    Temporal.RowKind.all.map (fun kind => kind.file.fileName) ++
    [membersFile, zonesFile, charsFile, curvesFile]

example : fileNames.length = 73 := by decide

theorem mem_fileNames_iff {name : String} : name ∈ fileNames ↔
    (∃ category : Category, registryFile category.name = name) ∨
      (∃ category : ProjectCategory, registryFile category.title = name) ∨
      (∃ kind : Temporal.RowKind, kind.file.fileName = name) ∨
      name ∈ [membersFile, zonesFile, charsFile, curvesFile] := by
  simp only [fileNames, List.mem_append, List.mem_map, Category.mem_all, ProjectCategory.mem_all,
    Temporal.RowKind.mem_all, true_and, or_assoc]

theorem registryFile_mem_fileNames (category : Category) :
    registryFile category.name ∈ fileNames :=
  mem_fileNames_iff.2 (.inl ⟨category, rfl⟩)

theorem projectRegistryFile_mem_fileNames (category : ProjectCategory) :
    registryFile category.title ∈ fileNames :=
  mem_fileNames_iff.2 (.inr (.inl ⟨category, rfl⟩))

theorem temporalFile_mem_fileNames (kind : Temporal.RowKind) : kind.file.fileName ∈ fileNames :=
  mem_fileNames_iff.2 (.inr (.inr (.inl ⟨kind, rfl⟩)))

theorem mem_fileNames_of_mem {name : String}
    (h : name ∈ [membersFile, zonesFile, charsFile, curvesFile]) : name ∈ fileNames :=
  mem_fileNames_iff.2 (.inr (.inr (.inr h)))

theorem isName_of_mem_fileNames {name : String} (h : name ∈ fileNames) : Files.IsName name := by
  have hothers : ∀ name ∈ [membersFile, zonesFile, charsFile, curvesFile], Files.IsName name := by
    decide
  rcases mem_fileNames_iff.1 h with ⟨category, rfl⟩ | ⟨category, rfl⟩ | ⟨kind, rfl⟩ | h
  · exact (isName_registryFile (slash_notMem_name category)).1
  · exact (isName_registryFile (slash_notMem_title category)).1
  · cases kind <;> decide
  · exact hothers name h

/-- All names of files end in the same character, which tells them from other files. -/
theorem getLast?_of_mem_fileNames {name : String} (h : name ∈ fileNames) :
    name.toList.getLast? = some 'v' := by
  have hregistry (registry : String) : (registryFile registry).toList.getLast? = some 'v' := by
    change ("subscenarios_" ++ registry ++ ".csv").toList.getLast? = some 'v'
    rw [String.toList_append, List.getLast?_append_of_ne_nil]
    all_goals decide
  have hothers : ∀ name ∈ [membersFile, zonesFile, charsFile, curvesFile],
      name.toList.getLast? = some 'v' := by decide
  rcases mem_fileNames_iff.1 h with ⟨category, rfl⟩ | ⟨category, rfl⟩ | ⟨kind, rfl⟩ | h
  · exact hregistry category.name
  · exact hregistry category.title
  · cases kind <;> decide
  · exact hothers name h

variable {files files' : Files} {folder : String} {store : Store}

/-! ## Files which say the same -/

theorem loadFile_of_sameAt {α β : Type} {name : String} {schema : Csv.Schema}
    {ofRow : Csv.Row schema.columns → α} {ofRows : List α → Except RowProblem β}
    (h : Files.SameAt files files' (Files.join folder name)) :
    loadFile files' folder name schema ofRow ofRows =
      loadFile files folder name schema ofRow ofRows := by
  rw [loadFile, loadFile, h.readAny]

/-- If all files of a store say the same, then so does the store. -/
theorem load_of_sameAt
    (h : ∀ name ∈ fileNames, Files.SameAt files files' (Files.join folder name)) :
    load files' folder = load files folder := by
  have hfragments : loadRegistries files' folder = loadRegistries files folder :=
    foldlM_congr (fun category _ registries => by
      rw [loadFile_of_sameAt (h _ (registryFile_mem_fileNames category))]) ∅
  have hproject : loadProjectRegistries files' folder = loadProjectRegistries files folder :=
    foldlM_congr (fun category _ registries => by
      rw [loadFile_of_sameAt (h _ (projectRegistryFile_mem_fileNames category))]) ∅
  have htemporal : loadTemporal files' folder = loadTemporal files folder := by
    rw [Temporal.loadTemporal_eq, Temporal.loadTemporal_eq]
    refine foldlM_congr (fun kind _ tables => ?_) ∅
    rw [Temporal.addFile, Temporal.addFile, Temporal.readRecords, Temporal.readRecords,
      (h _ (temporalFile_mem_fileNames kind)).readAny]
  have hsame {name : String} (hname : name ∈ [membersFile, zonesFile, charsFile, curvesFile]) :=
    h name (mem_fileNames_of_mem hname)
  rw [load, load, hfragments, hproject, htemporal, loadFile_of_sameAt (hsame (by simp)),
    loadFile_of_sameAt (hsame (by simp)), loadFile_of_sameAt (hsame (by simp)),
    loadFile_of_sameAt (hsame (by simp))]

/-! ## The store which the files make -/

/-- Registries, but for those which are empty, added to some others. -/
def addRegistries {κ ι : Type} [DecidableEq κ] (registry : κ → OrderedMap ι Fragment)
    (keys : List κ) (before : OrderedMap κ (OrderedMap ι Fragment)) :
    OrderedMap κ (OrderedMap ι Fragment) :=
  keys.foldl (fun registries key =>
    if (registry key).isEmpty then registries else registries.insert key (registry key)) before

theorem foldlM_addRegistry {κ ι : Type} [DecidableEq κ]
    {loadOne : κ → Attempt (OrderedMap ι Fragment)} {registry : κ → OrderedMap ι Fragment}
    {keys : List κ} (h : ∀ key ∈ keys, loadOne key = .ok (registry key))
    (before : OrderedMap κ (OrderedMap ι Fragment)) :
    keys.foldlM (addRegistry loadOne) before = .ok (addRegistries registry keys before) := by
  induction keys generalizing before with
  | nil => rfl
  | cons key keys ih =>
    rw [List.forall_mem_cons] at h
    rw [List.foldlM_cons, bind_ok_iff]
    exact ⟨_, addRegistry_ok_iff.2 ⟨_, h.1, rfl⟩, ih h.2 _⟩

/-- The store is made of what its files make, each one by itself. -/
theorem load_of_parts (store : Store) (registry : Category → OrderedMap Nat Fragment)
    (projectRegistry : ProjectCategory → OrderedMap (EntityName × Nat) Fragment)
    (hfragments : ∀ category : Category, loadFile files folder (registryFile category.name)
      fragmentSchema fragmentOfRow fragmentsOfRows = .ok (registry category))
    (hmembers : loadFile files folder membersFile memberSchema memberOfRow membersOfRows =
      .ok store.members)
    (hzones : loadFile files folder zonesFile zoneSchema zoneOfRow zonesOfRows = .ok store.zones)
    (hchars : loadFile files folder charsFile charsSchema charsOfRow charsOfRows =
      .ok store.operationalChars)
    (hproject : ∀ category : ProjectCategory, loadFile files folder (registryFile category.title)
      projectFragmentSchema projectFragmentOfRow projectFragmentsOfRows =
        .ok (projectRegistry category))
    (hcurves : loadFile files folder curvesFile curveSchema curveOfRow curvesOfRows =
      .ok store.heatRateCurves)
    (htemporal : loadTemporal files folder = .ok store.temporal) :
    load files folder = .ok { store with
      fragments := addRegistries registry Category.all ∅
      projectFragments := addRegistries projectRegistry ProjectCategory.all ∅ } := by
  have hregistries : loadRegistries files folder = .ok (addRegistries registry Category.all ∅) :=
    foldlM_addRegistry (fun category _ => hfragments category) ∅
  have hprojectRegistries : loadProjectRegistries files folder =
      .ok (addRegistries projectRegistry ProjectCategory.all ∅) :=
    foldlM_addRegistry (fun category _ => hproject category) ∅
  simp only [load, bind_ok_iff, pure_ok_iff]
  exact ⟨_, hregistries, _, hmembers, _, hzones, _, hchars, _, hprojectRegistries, _, hcurves, _,
    htemporal, rfl⟩

/-! ## A store with two scenarios -/

/-- The categories of which there is a fragment. -/
def zonedCategories : List Category :=
  [.temporal, .loadZones, .load, .projectPortfolio, .projectOperationalChars, .projectLoadZones]

/-- The file of the scenarios: one which selects all fragments, and one which selects nothing. -/
def zonedScenarios : String :=
  "zones.subscenarios = \x7b temporal = 1, load_zones = 1, load = 1, project_portfolio = 1, " ++
    "project_operational_chars = 1, project_load_zones = 1 \x7d\nnothing = \x7b\x7d\n"

/-- The cells of the other files. There are two projects: one in a zone whose name looks like those
    of two zones, and one in these two zones. -/
def zonedTables : List (String × List (List String)) := [
  (membersFile, [["category", "subscenario_id", "entity"], ["load_zones", "1", "north"],
    ["load_zones", "1", "south"], ["load_zones", "1", "north;south"],
    ["project_portfolio", "1", "wind"], ["project_portfolio", "1", "gas_ct"]]),
  (zonesFile, [["category", "subscenario_id", "entity", "zone"],
    ["project_load_zones", "1", "wind", "north;south"],
    ["project_load_zones", "1", "gas_ct", "north"],
    ["project_load_zones", "1", "gas_ct", "south"]]),
  (charsFile, [["subscenario_id", "project", "operational_type"], ["1", "wind", "gen_var"],
    ["1", "gas_ct", "gen_commit_cap"]]),
  ("temporal_periods.csv",
    [["temporal_scenario_id", "period", "discount_factor", "number_years_represented"],
      ["1", "2030", "1", "10"]]),
  ("temporal_subproblems.csv", [["temporal_scenario_id", "subproblem_id"], ["1", "1"]]),
  ("temporal_timepoints.csv",
    [["temporal_scenario_id", "subproblem_id", "stage_id", "timepoint", "period",
      "number_of_hours_in_timepoint", "timepoint_weight"],
      ["1", "1", "1", "1", "2030", "24", "365"]]),
  ("temporal_horizons.csv",
    [["temporal_scenario_id", "subproblem_id", "balancing_type_horizon", "horizon", "boundary"],
      ["1", "1", "day", "1", "circular"]]),
  ("temporal_horizon_timepoints.csv",
    [["temporal_scenario_id", "subproblem_id", "stage_id", "timepoint", "balancing_type_horizon",
      "horizon"], ["1", "1", "1", "1", "day", "1"]])] ++
  zonedCategories.map fun category => (registryFile category.name,
    [["subscenario_id", "name", "description"], ["1", "base", ""]])

/-- The characters of a file with some cells. -/
def charsOfCells (rows : List (List String)) : List Char :=
  rows.flatMap fun row => Text.joinChars ',' (row.map String.toList) ++ ['\n']

/-- All files of the store. -/
def zonedTexts : List (String × String) :=
  (Scenario.fileName, zonedScenarios) ::
    zonedTables.map fun table => (table.1, String.ofList (charsOfCells table.2))

/-- The files of the store in a folder, and nothing else. -/
def zonedFiles : Files where
  tree := (({} : Files.Tree).put ["store"] .folder).fill ["store"] zonedTexts

/-- The records of a file of the store, read in one way or another. -/
def zonedRecords {α : Type} (read : Csv.Table → Except Csv.Problem (List α)) (name : String) :
    Attempt (List α) :=
  match zonedTables.lookup name with
  | some rows => Attempt.within (Failure.reading (Files.join "store" name)) <|
      Attempt.ofTable (read (.ofSymbols (charsOfCells rows)))
  | none => .ok []

/-- The registry of each category. -/
def zonedRegistry (category : Category) : OrderedMap Nat Fragment :=
  if category ∈ zonedCategories then .ofList [(1, ⟨1, "base", ""⟩)] else ∅

/-- The store. -/
def zonedStore : Store where
  fragments := addRegistries zonedRegistry Category.all ∅
  members := .ofList [(⟨.loadZones, 1⟩, .ofList ["north", "south", "north;south"]),
    (⟨.projectPortfolio, 1⟩, .ofList ["wind", "gas_ct"])]
  zones := .ofList [(⟨.projectLoadZones, 1⟩, .ofList [("wind", .ofList ["north;south"]),
    ("gas_ct", .ofList ["north", "south"])])]
  operationalChars := .ofList [(1, .ofList [
    ("wind", { project := "wind", operationalType := "gen_var" }),
    ("gas_ct", { project := "gas_ct", operationalType := "gen_commit_cap" })])]
  projectFragments := addRegistries (fun _ => ∅) ProjectCategory.all ∅
  heatRateCurves := ∅
  temporal := .ofList [(1, {
    periods := [⟨2030, 1, 10⟩]
    subproblems := [1]
    stages := []
    timepoints := [⟨1, 1, ⟨1, 2030, 24, 365, none, none, none⟩⟩]
    horizons := [⟨1, "day", "1", .circular⟩]
    members := [⟨1, 1, 1, "day", "1"⟩]
    spans := [] })]

theorem locate_zonedFiles : zonedFiles.locate "store" = .ok ["store"] := by decide

theorem isFolder_zonedFiles : zonedFiles.tree.node? ["store"] = some .folder := by decide

theorem doesExist_zonedFiles {name : String} (hname : Files.IsName name)
    (hmissing : name ∉ zonedTexts.map Prod.fst) :
    zonedFiles.doesExist (Files.join "store" name) = false := by
  refine Files.doesExist_join_eq_false hname locate_zonedFiles ?_
  rw [zonedFiles, Files.Tree.node?_fill_of_notMem hmissing, Files.Tree.node?_put (by simp)]
  simp [Files.Tree.node?]

theorem read_zonedFiles {name : String} {rows : List (List String)} (hname : name ∈ fileNames)
    (h : (name, rows) ∈ zonedTables) : zonedFiles.read (Files.join "store" name) =
      .ok (.text (String.ofList (charsOfCells rows))) := by
  have hlimits : ∀ name ∈ zonedTables.map Prod.fst, '\x00' ∉ name.toList ∧
      name.utf8ByteSize ≤ Files.nameLimit ∧
      "store".utf8ByteSize + 1 + name.utf8ByteSize < Files.pathLimit := by decide
  obtain ⟨hnull, hsize, hlimit⟩ := hlimits name (List.mem_map_of_mem h)
  have hnodup : (zonedTexts.map Prod.fst).Nodup := by decide
  have hlocate := Files.locate_join (isName_of_mem_fileNames hname)
    (Files.usable_of (by decide) hnull hsize hlimit) locate_zonedFiles isFolder_zonedFiles
  exact Files.read_ok_iff.2 ⟨Files.endsInSlash_join_of_isName (isName_of_mem_fileNames hname), _,
    hlocate, Files.Tree.node?_fill_of_mem hnodup (List.mem_cons_of_mem _ (List.mem_map_of_mem h))⟩

/-- The files of the store without a table are missing. -/
theorem notMem_zonedTexts {name : String} (hname : name ∈ fileNames)
    (h : name ∉ zonedTables.map Prod.fst) : name ∉ zonedTexts.map Prod.fst := by
  rw [zonedTexts, List.map_cons, List.mem_cons, List.map_map, not_or]
  constructor
  · rintro rfl
    exact absurd (getLast?_of_mem_fileNames hname) (by decide)
  · exact h

/-- What is read of the store comes from the cells. -/
theorem readAny_zonedFiles {α : Type} (read : Csv.Table → Except Csv.Problem (List α))
    {name : String} (hname : name ∈ fileNames) :
    zonedFiles.readAny read (Files.join "store" name) = zonedRecords read name := by
  rw [zonedRecords]
  rcases hrows : zonedTables.lookup name with _ | rows
  · have hmissing : name ∉ zonedTables.map Prod.fst := by
      intro hmem
      obtain ⟨table, htable, rfl⟩ := List.mem_map.1 hmem
      simpa using List.lookup_eq_none_iff.1 hrows table htable
    exact Files.readAny_of_missing (doesExist_zonedFiles (isName_of_mem_fileNames hname)
      (notMem_zonedTexts hname hmissing))
  · obtain ⟨before, after, htables, -⟩ := List.lookup_eq_some_iff.1 hrows
    have hread := read_zonedFiles hname (htables ▸ List.mem_append_right before List.mem_cons_self)
    rw [Files.readAny_of_read hread, Files.Content.table, String.toList_ofList]

theorem loadFile_zonedFiles {α β : Type} {name : String} {schema : Csv.Schema}
    {ofRow : Csv.Row schema.columns → α} {ofRows : List α → Except RowProblem β} {b : β}
    (hname : name ∈ fileNames)
    (h : ((zonedRecords (Csv.readRows schema) name).toOption.bind fun rows =>
      (ofRows (rows.map ofRow)).toOption) = some b) :
    loadFile zonedFiles "store" name schema ofRow ofRows = .ok b := by
  obtain ⟨rows, hrows, hok⟩ := Option.bind_eq_some_iff.1 h
  refine loadFile_ok_iff.2 ⟨rows.map ofRow, ?_, toOption_eq_some_iff.1 hok⟩
  rw [rowsOfFile, readAny_zonedFiles _ hname, toOption_eq_some_iff.1 hrows]
  rfl

/-- The files are loaded, each one by itself. -/
theorem load_zonedFiles : load zonedFiles "store" = .ok zonedStore := by
  have htemporal : loadTemporal zonedFiles "store" = .ok zonedStore.temporal := by
    rw [Temporal.loadTemporal_eq, foldlM_congr (fun kind _ tables => by
      rw [Temporal.addFile, Temporal.readRecords,
        readAny_zonedFiles _ (temporalFile_mem_fileNames kind)])]
    decide
  have hfragments : ∀ category ∈ Category.all,
      ((zonedRecords (Csv.readRows fragmentSchema) (registryFile category.name)).toOption.bind
        fun rows => (fragmentsOfRows (rows.map fragmentOfRow)).toOption) =
          some (zonedRegistry category) := by decide
  have hproject : ∀ category ∈ ProjectCategory.all,
      ((zonedRecords (Csv.readRows projectFragmentSchema)
        (registryFile category.title)).toOption.bind fun rows =>
          (projectFragmentsOfRows (rows.map projectFragmentOfRow)).toOption) = some ∅ := by decide
  refine load_of_parts zonedStore zonedRegistry (fun _ => ∅) (fun category => ?_) ?_ ?_ ?_
    (fun category => ?_) ?_ htemporal
  · exact loadFile_zonedFiles (registryFile_mem_fileNames category)
      (hfragments category (Category.mem_all category))
  · exact loadFile_zonedFiles (mem_fileNames_of_mem (by simp)) (by decide)
  · exact loadFile_zonedFiles (mem_fileNames_of_mem (by simp)) (by decide)
  · exact loadFile_zonedFiles (mem_fileNames_of_mem (by simp)) (by decide)
  · exact loadFile_zonedFiles (projectRegistryFile_mem_fileNames category)
      (hproject category (ProjectCategory.mem_all category))
  · exact loadFile_zonedFiles (mem_fileNames_of_mem (by simp)) (by decide)

/-- The first scenario is assembled, and the second one is not. -/
theorem exists_scenarios_zonedFiles : ∃ zones nothing scenario,
    Scenario.loadAll zonedFiles "store" = .ok [zones, nothing] ∧
    zones.name = "zones" ∧ nothing.name = "nothing" ∧
    (assemble zonedStore zones .bundled).outcome = .ok scenario ∧
    scenario.projects.map (fun p => (p.project, p.loadZones)) =
      [("wind", ["north;south"]), ("gas_ct", ["north", "south"])] ∧
    (assemble zonedStore nothing .bundled).outcome.isOk = false := by
  let shown (s : Scenario) : String × Option (List (EntityName × List EntityName)) :=
    (s.name, (assemble zonedStore s .bundled).outcome.toOption.map fun scenario =>
      scenario.projects.map fun p => (p.project, p.loadZones))
  have hall : (Scenario.loadAll zonedFiles "store").toOption.any fun scenarios =>
      scenarios.map shown =
        [("zones", some [("wind", ["north;south"]), ("gas_ct", ["north", "south"])]),
          ("nothing", none)] := by decide +kernel
  obtain ⟨scenarios, hload, hall⟩ := (Option.any_eq_true _ _).1 hall
  obtain ⟨zones, rest, rfl, hzones, hrest⟩ := List.map_eq_cons_iff.1 (of_decide_eq_true hall)
  obtain ⟨nothing, rest, rfl, hnothing, hrest⟩ := List.map_eq_cons_iff.1 hrest
  obtain rfl := List.map_eq_nil_iff.1 hrest
  obtain ⟨hname, hzones⟩ := Prod.mk.inj hzones
  obtain ⟨hname', hnothing⟩ := Prod.mk.inj hnothing
  obtain ⟨scenario, hok, hprojects⟩ := Option.map_eq_some_iff.1 hzones
  have hfails := Option.map_eq_none_iff.1 hnothing
  refine ⟨zones, nothing, scenario, toOption_eq_some_iff.1 hload, hname, hname',
    toOption_eq_some_iff.1 hok, hprojects, ?_⟩
  rcases hcase : (assemble zonedStore nothing .bundled).outcome with _ | _
  · rfl
  · rw [hcase] at hfails
    cases hfails

end Store

end CapacityExpansion
