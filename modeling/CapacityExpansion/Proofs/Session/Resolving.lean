import CapacityExpansion.Proofs.Results.NewFolders
import CapacityExpansion.Proofs.Session.Validation
import CapacityExpansion.Proofs.Store.Parts

/-!
# Resolving scenarios

To resolve a scenario is to prepare the folder for the results, to assemble the scenario
as its validation does, and to write the results. The folder is there before the store is
loaded. But a new folder changes nothing that there is, and even in the place of a file
which the store does without it has no rows, as little as the missing file. So the same
store is loaded.

* `Prepared`, `prepared_of_prepareOutput`: what a new folder changes;
* `Prepared.load_eq`, `Prepared.provided`: all is loaded as before;
* `resolveInto`, `resolve_eq`: what is done once the folder is prepared;
* `assembled`, `Gives.assembleNamed`: what is assembled then, or what fails first;
* `resolve_ends_ok`, `resolve_ends_error`: when results are written;
* `validation_agrees`: the validation of a store, that of its scenarios, and their resolution.
-/

namespace CapacityExpansion

/-! ## Files which have grown -/

section Grows

variable {added : List Files.Place} {f f' : Files} {folder path : String}

/-- A document which can be read is still there. -/
theorem readDocument_of_grows {α : Type} {decode : Toml.Table → Except Toml.Problem α} {a : α}
    (h : Files.Grows added f f') (hread : f.readDocument decode path = .ok a) :
    f'.readDocument decode path = .ok a := by
  simp only [Files.readDocument, Attempt.within, mapError_ok_iff, bind_ok_iff,
    Attempt.ofFiles] at hread ⊢
  obtain ⟨text, htext, hread⟩ := hread
  exact ⟨text, h.readText htext, hread⟩

theorem Requirements.load_of_grows {file : Option String} {requirements : Requirements}
    (h : Files.Grows added f f') (hload : Requirements.load f file = .ok requirements) :
    Requirements.load f' file = .ok requirements := by
  rcases file with _ | path
  · exact hload
  · rw [Requirements.load, bind_ok_iff] at hload ⊢
    obtain ⟨named, hnamed, hload⟩ := hload
    exact ⟨named, readDocument_of_grows h hnamed, hload⟩

theorem Scenario.loadAll_of_grows {scenarios : List Scenario} (h : Files.Grows added f f')
    (hload : Scenario.loadAll f folder = .ok scenarios) :
    Scenario.loadAll f' folder = .ok scenarios := by
  rw [Scenario.loadAll, bind_ok_iff] at hload ⊢
  obtain ⟨loaded, hloaded, hload⟩ := hload
  exact ⟨loaded, readDocument_of_grows h hloaded, hload⟩

/-- The file of the scenarios is in the folder of a store of which they can be loaded. -/
theorem Scenario.exists_locate_of_loadAll {scenarios : List Scenario}
    (hload : Scenario.loadAll f folder = .ok scenarios) :
    ∃ place, f.locate (Files.join folder Scenario.fileName) = .ok place := by
  simp only [Scenario.loadAll, bind_ok_iff, Files.readDocument, Attempt.within, mapError_ok_iff,
    Attempt.ofFiles] at hload
  obtain ⟨-, ⟨text, htext, -⟩, -⟩ := hload
  obtain ⟨-, place, hplace, -⟩ := Files.read_ok_iff.1 (Files.readText_ok_iff.1 htext)
  exact ⟨place, hplace⟩

end Grows

namespace Session

variable {α β : Type} {settings : Settings} {folder out name : String} {overwrite : Bool}
  {world after : World} {requirements : Requirements} {store : Store} {scenarios : List Scenario}
  {s : Scenario}

/-- Sessions in a row succeed if each one does in the world which those before it leave behind. -/
theorem bind_ok_iff' {session : Session α} {next : α → Session β} {b : β} :
    (session >>= next) world = (.ok b, after) ↔
      ∃ a middle, session world = (.ok a, middle) ∧ next a middle = (.ok b, after) := by
  rcases hsession : session world with ⟨failure | a, middle⟩
  · rw [bind_of_error hsession]
    exact ⟨nofun, fun ⟨_, _, h, _⟩ => nomatch h⟩
  · rw [bind_of_ok hsession]
    constructor
    · exact fun h => ⟨a, middle, rfl, h⟩
    · rintro ⟨_, _, h, h'⟩
      cases h
      exact h'

/-! ## A new folder -/

/-- A folder for results is new: nothing was there under its path, nor where the path leads once
    the folder has been prepared. -/
structure IsNew (before after : Files) (folder : String) : Prop where
  missing : before.doesExist folder = false
  free : ∃ place, after.locate folder = .ok place ∧ before.tree.node? place = none

/-- A world in which a folder has been prepared: files have grown, and only the log files are
    new. -/
structure Prepared (world after : World) (folder : String) : Prop where
  environment : after.environment = world.environment
  isStarted : after.logger.isStarted = true
  exists_place : ∃ place, after.files.locate folder = .ok place ∧
    Files.Grows [place ++ [infoFile], place ++ [errorFile]] world.files after.files

/-- A file in the place of a log file has its name. -/
theorem eq_of_mem_logPlaces {place folderPlace : Files.Place} {name : String}
    (h : folderPlace ++ [name] ∈ [place ++ [infoFile], place ++ [errorFile]]) :
    name = infoFile ∨ name = errorFile := by
  rw [List.mem_pair] at h
  exact h.imp (fun e => List.singleton_inj.1 (List.append_inj_right' e rfl))
    fun e => List.singleton_inj.1 (List.append_inj_right' e rfl)

theorem onFiles_ok_iff {action : FileAction α} {a : α} :
    onFiles action world = (.ok a, after) ↔
      ∃ files, action.Runs world.files a files ∧ { world with files } = after := by
  constructor
  · intro h
    obtain ⟨hresult, rfl⟩ := Prod.mk.inj h
    exact ⟨_, Prod.ext hresult rfl, rfl⟩
  · rintro ⟨files, h, rfl⟩
    rw [onFiles, h]

theorem within_ok_iff {session : Session α} {context : String} {a : α} :
    within context session world = (.ok a, after) ↔ session world = (.ok a, after) := by
  rw [within]
  rcases session world with ⟨result, middle⟩
  constructor
  · intro h
    obtain ⟨hresult, rfl⟩ := Prod.mk.inj h
    exact congrArg (·, middle) (mapError_ok_iff.1 hresult)
  · intro h
    obtain ⟨rfl, rfl⟩ := Prod.mk.inj h
    rfl

/-- The log files are written to the folder for them, or the log has been started before. -/
theorem files_of_startLog {level : String}
    (h : startLog level (some folder) world = (.ok (), after)) :
    after.environment = world.environment ∧ after.logger.isStarted = true ∧
      (after.files = world.files ∨ ∃ middle,
        world.files.write (Files.join folder infoFile) (.text "") = .ok middle ∧
        middle.write (Files.join folder errorFile) (.text "") = .ok after.files) := by
  by_cases hstarted : world.logger.isStarted = true
  · rw [startLog_of_isStarted hstarted] at h
    obtain ⟨-, rfl⟩ := Prod.mk.inj h
    exact ⟨rfl, hstarted, .inl rfl⟩
  · rw [startLog_of_not_isStarted hstarted, openLog] at h
    rcases hfilter : Filter.ofText? (world.environment.logLevel.getD level) with _ | filter
    · rw [hfilter] at h
      cases h
    · rw [hfilter] at h
      obtain ⟨_, middle, hinfo, h⟩ := bind_ok_iff'.1 h
      obtain ⟨_, last, herror, h⟩ := bind_ok_iff'.1 h
      obtain ⟨_, hrun, rfl⟩ := onFiles_ok_iff.1 hinfo
      obtain ⟨_, hrun', rfl⟩ := onFiles_ok_iff.1 herror
      obtain ⟨-, rfl⟩ := Prod.mk.inj h
      exact ⟨rfl, rfl, .inr ⟨_, FileAction.change_runs_iff.1 hrun,
        FileAction.change_runs_iff.1 hrun'⟩⟩

/-- A folder which is new is prepared without a change to what there is. -/
theorem prepared_of_prepareOutput (hrooted : world.files.tree.Rooted)
    (hnew : IsNew world.files after.files folder)
    (h : prepareOutput folder settings overwrite true world = (.ok (), after)) :
    Prepared world after folder := by
  obtain ⟨place, hplace, hfree⟩ := hnew.free
  obtain ⟨replaced, created, hcreated, hrest⟩ := bind_ok_iff'.1 h
  obtain ⟨f, hfolder, rfl⟩ := onFiles_ok_iff.1 (within_ok_iff.1 hcreated)
  obtain ⟨_, started, hstarted, hlogged⟩ := bind_ok_iff'.1 hrest
  obtain ⟨henvironment, hisStarted, hlogs⟩ := files_of_startLog (within_ok_iff.1 hstarted)
  -- The entries of the log change nothing else.
  have hkeeps : started.Keeps after := by
    have hgives : Gives (do
        Session.record .info ("Output folder: " ++ folder)
        if replaced then Session.record .warn "Output folder will be overwritten") started
        (.ok ()) := by
      refine (Gives.record _ _ started).bind fun middle _ => ?_
      split
      · exact Gives.record _ _ middle
      · exact Gives.pure () middle
    have hafter := hgives.keeps
    rwa [hlogged] at hafter
  have hfolders : Files.Grows [] world.files f := by
    rw [Results.createFolders_of_missing hnew.missing hfolder]
    exact Files.Grows.createFolders world.files folder
  refine ⟨hkeeps.environment.trans henvironment, hkeeps.isStarted hisStarted, place, hplace, ?_⟩
  rw [hkeeps.files] at hplace ⊢
  rcases hlogs with hsame | ⟨middle, hinfo, herror⟩
  · rw [hsame]
    exact hfolders.mono (List.nil_subset _)
  · -- Nothing was below the new folder, so the log files are new as well.
    have hplaceMiddle := (Files.SameFolders.of_write herror).locate_ok_iff.2 hplace
    have hplaceFirst := (Files.SameFolders.of_write hinfo).locate_ok_iff.2 hplaceMiddle
    have hgrows := hfolders.write_new hrooted hfree (by decide) hplaceFirst List.not_mem_nil hinfo
    exact hgrows.write_new hrooted hfree (by decide) hplaceMiddle
      (by simp [show errorFile ≠ infoFile by decide]) herror

/-! ## The store after that -/

namespace Prepared

/-- The same store is loaded: where a file is missing there is nothing now, or a folder without
    rows. -/
theorem load_eq (h : Prepared world after out)
    (hscenarios : Scenario.loadAll world.files folder = .ok scenarios) :
    Store.load after.files folder = Store.load world.files folder := by
  obtain ⟨place, -, hgrows⟩ := h.exists_place
  obtain ⟨scenariosPlace, hscenariosPlace⟩ := Scenario.exists_locate_of_loadAll hscenarios
  refine Store.load_of_sameAt fun name hname => hgrows.sameAt_join
    (Store.isName_of_mem_fileNames hname) (by decide) hscenariosPlace fun folderPlace hlog => ?_
  -- The log files have other names than the files of a store.
  have hlast := Store.getLast?_of_mem_fileNames hname
  rcases eq_of_mem_logPlaces hlog with rfl | rfl <;> exact absurd hlast (by decide)

/-- All that the commands on a store load is still there. -/
theorem provided (h : Prepared world after out)
    (hprovided : Provided settings folder world requirements store scenarios) :
    Provided settings folder after requirements store scenarios := by
  obtain ⟨place, -, hgrows⟩ := h.exists_place
  exact ⟨.inl h.isStarted, Requirements.load_of_grows hgrows hprovided.requirements,
    (h.load_eq hprovided.scenarios).trans hprovided.store,
    Scenario.loadAll_of_grows hgrows hprovided.scenarios⟩

end Prepared

/-! ## What is done after that -/

/-- Assembles a scenario and writes the results to a folder which has been prepared. -/
def resolveInto (settings : Settings) (store scenario out : String) : Session Unit := do
  record .info ("Starting " ++ programName ++ " v" ++ version)
  let requirements ← loadRequirements settings
  let (loaded, scenarios) ← loadAll store
  let found ← findScenario scenarios scenario
  match ← assembleLogged loaded found requirements with
  | .error error => throw { cause := .assembly error }
  | .ok resolved =>
    let view := ScenarioView.ofScenario loaded found
    let provenance := (← get).environment.provenance
    onFiles (Results.writeAll provenance out store resolved view)
    record .info s!"Scenario {scenario} resolved"

/-- To resolve a scenario is to prepare the folder for it first. -/
theorem resolve_eq (settings : Settings) (store scenario out : String) (overwrite : Bool) :
    resolve settings store scenario { folder := some out, overwrite } =
      prepareOutput out settings overwrite true >>= fun _ =>
        resolveInto settings store scenario out := rfl

/-- What is assembled for the scenario with a name, with the store and the scenario it is from. -/
def assembled (settings : Settings) (folder name : String) (files : Files) :
    Attempt (Store × Scenario × ResolvedScenario) := do
  let requirements ← Attempt.within "Failed to load feature requirements."
    (Requirements.load files settings.requirementsFile)
  let (store, scenarios) ← loaded folder files
  let s ← found scenarios name
  let resolved ← (assemble store s requirements).outcome.mapError fun error =>
    { cause := .assembly error }
  return (store, s, resolved)

/-- Something is assembled if all can be loaded, the scenario is there, and it can be assembled. -/
theorem assembled_ok_iff {files : Files} {resolved : ResolvedScenario} :
    assembled settings folder name files = .ok (store, s, resolved) ↔
      ∃ requirements scenarios,
        Requirements.load files settings.requirementsFile = .ok requirements ∧
        Store.load files folder = .ok store ∧ Scenario.loadAll files folder = .ok scenarios ∧
        scenarios.find? (·.name == name) = some s ∧
        (assemble store s requirements).outcome = .ok resolved := by
  simp only [assembled, Attempt.within, bind_ok_iff, mapError_ok_iff, pure_ok_iff, found_ok_iff,
    Prod.exists, loaded_ok_iff, Prod.mk.injEq]
  constructor
  · rintro ⟨requirements, hrequirements, store, scenarios, ⟨hstore, hscenarios⟩, s, hs, resolved,
      hassemble, rfl, rfl, rfl⟩
    exact ⟨requirements, scenarios, hrequirements, hstore, hscenarios, hs, hassemble⟩
  · rintro ⟨requirements, scenarios, hrequirements, hstore, hscenarios, hs, hassemble⟩
    exact ⟨requirements, hrequirements, store, scenarios, ⟨hstore, hscenarios⟩, s, hs, resolved,
      hassemble, rfl, rfl, rfl⟩

/-- If all can be loaded, then it is the assembly which decides. -/
theorem Provided.assembled_eq (h : Provided settings folder world requirements store scenarios)
    (hs : scenarios.find? (·.name == name) = some s) :
    assembled settings folder name world.files =
      ((assemble store s requirements).outcome.mapError fun error =>
        { cause := .assembly error }).map fun resolved => (store, s, resolved) := by
  rw [assembled, h.requirements, h.loaded_eq]
  change found scenarios name >>= _ = _
  rw [found_ok_iff.2 hs]
  rfl

/-- Assembles the scenario with a name. -/
def assembleNamed (settings : Settings) (folder name : String) :
    Session (Store × Scenario × ResolvedScenario) := do
  record .info ("Starting " ++ programName ++ " v" ++ version)
  let requirements ← loadRequirements settings
  let (store, scenarios) ← loadAll folder
  let s ← findScenario scenarios name
  match ← assembleLogged store s requirements with
  | .error error => throw { cause := .assembly error }
  | .ok resolved => return (store, s, resolved)

/-- Writes what has been assembled for the scenario with a name. -/
def writeAssembled (folder name out : String) : Store × Scenario × ResolvedScenario → Session Unit
  | (store, s, resolved) => do
    let provenance := (← get).environment.provenance
    onFiles (Results.writeAll provenance out folder resolved (.ofScenario store s))
    record .info s!"Scenario {name} resolved"

theorem resolveInto_eq (settings : Settings) (folder name out : String) :
    resolveInto settings folder name out =
      assembleNamed settings folder name >>= writeAssembled folder name out := by
  rw [resolveInto, assembleNamed]
  simp only [bind_assoc]
  refine bind_congr fun _ => bind_congr fun requirements => bind_congr fun (store, scenarios) => ?_
  refine bind_congr fun s => bind_congr fun outcome => ?_
  rcases outcome with error | resolved
  · rfl
  · rw [pure_bind]
    rfl

/-- To assemble a scenario changes nothing else, and fails with what fails first. -/
theorem Gives.assembleNamed (settings : Settings) (folder name : String) (world : World) :
    Gives (assembleNamed settings folder name) world
      (assembled settings folder name world.files) := by
  refine (record _ _ world).bind fun after hkeeps => ?_
  rw [← hkeeps.files]
  refine ((look _ after).within _).bind_result fun requirements after hkeeps => ?_
  rw [← hkeeps.files]
  refine (loadAll folder after).bind_result fun (store, scenarios) after _ => ?_
  refine (findScenario scenarios name after).bind_result fun s after _ => ?_
  refine (assembleLogged store s requirements after).bind fun after _ => ?_
  rcases (assemble store s requirements).outcome with error | resolved
  · exact throw _ after
  · exact pure _ after

/-- Nothing is written unless something is assembled. -/
theorem Gives.resolveInto {failure : Failure}
    (h : assembled settings folder name world.files = .error failure) :
    Gives (resolveInto settings folder name out) world (.error failure) := by
  rw [resolveInto_eq]
  exact (h ▸ assembleNamed settings folder name world).bind_error

/-- What is assembled is written. -/
theorem resolveInto_of_writes {resolved : ResolvedScenario} {files : Files}
    (h : assembled settings folder name world.files = .ok (store, s, resolved))
    (hwrite : (Results.writeAll world.environment.provenance out folder resolved
      (.ofScenario store s)).Runs world.files () files) :
    Ends (resolveInto settings folder name out) world (.ok ()) files := by
  rw [resolveInto_eq]
  refine (h ▸ Gives.assembleNamed settings folder name world).bind_ends fun after hkeeps => ?_
  rw [← hkeeps.files, ← hkeeps.environment] at hwrite
  refine (Gives.get after).bind_ends fun after' hkeeps => ?_
  rw [← hkeeps.files] at hwrite
  exact (Ends.onFiles hwrite).bind_gives fun last => Gives.record _ _ last

/-! ## Results of valid scenarios -/

/-- No file of results is in a new folder before the results are written. -/
theorem Prepared.isFile_eq_false (h : Prepared world after out) (hrooted : world.files.tree.Rooted)
    (hnew : IsNew world.files after.files out) :
    ∀ file ∈ Results.resultNames, after.files.isFile (Files.join out file) = false := by
  intro file hfile
  obtain ⟨place, hplace, hgrows⟩ := h.exists_place
  obtain ⟨place', hplace', hfree⟩ := hnew.free
  obtain rfl := Except.ok.inj (hplace.symm.trans hplace')
  by_contra hisFile
  obtain ⟨content, hread⟩ := Files.isFile_iff.1 (eq_true_of_ne_false hisFile)
  obtain ⟨-, q, hq, hnode⟩ := Files.read_ok_iff.1 hread
  rw [Files.eq_of_locate_join (Results.isName_of_mem_resultNames hfile) hplace hq] at hnode
  have hnone := hrooted.node?_append hfree file
  rcases hgrows.new _ hnone (by rw [hnode]; exact nofun) with hnew | hlog
  · cases hnode.symm.trans hnew
  · rcases eq_of_mem_logPlaces hlog with rfl | rfl <;> exact absurd hfile (by decide)

section Resolve

variable (h : Provided settings folder world requirements store scenarios)
  (hs : scenarios.find? (·.name == name) = some s) (hprepared : Prepared world after out)
  (hprepare : prepareOutput out settings overwrite true world = (.ok (), after))

include h hs hprepared hprepare

/-- What is assembled is written. -/
theorem resolve_ends_ok {resolved : ResolvedScenario} {files : Files}
    (hassemble : (assemble store s requirements).outcome = .ok resolved)
    (hwrite : (Results.writeAll world.environment.provenance out folder resolved
      (.ofScenario store s)).Runs after.files () files) :
    Ends (resolve settings folder name { folder := some out, overwrite }) world (.ok ()) files := by
  have hassembled := (hprepared.provided h).assembled_eq hs
  rw [hassemble] at hassembled
  rw [← hprepared.environment] at hwrite
  obtain ⟨last, hlast, hfiles⟩ := resolveInto_of_writes hassembled hwrite
  exact ⟨last, by rw [resolve_eq, bind_of_ok hprepare, hlast], hfiles⟩

/-- If the scenario cannot be assembled, then nothing is written. -/
theorem resolve_ends_error {error : AssemblyError}
    (hassemble : (assemble store s requirements).outcome = .error error) :
    Ends (resolve settings folder name { folder := some out, overwrite }) world
      (.error { cause := .assembly error }) after.files := by
  have hassembled := (hprepared.provided h).assembled_eq hs
  rw [hassemble] at hassembled
  obtain ⟨last, hlast, hkeeps⟩ := Gives.resolveInto hassembled
  exact ⟨last, by rw [resolve_eq, bind_of_ok hprepare, hlast], hkeeps.files⟩

end Resolve

/-- The names of the scenarios of which the validation fails. -/
def failing (settings : Settings) (folder : String) (world : World) (scenarios : List Scenario) :
    List String :=
  (scenarios.map Scenario.name).filter fun name =>
    !(validate settings folder (some name) world).1.isOk

/-- Scenarios which cannot be assembled are those of which the validation fails. -/
theorem length_failing (h : Provided settings folder world requirements store scenarios) :
    (failing settings folder world scenarios).length = failures store requirements scenarios := by
  have hnodup := Scenario.nodup_names_of_loadAll h.scenarios
  rw [failing, ← List.countP_eq_length_filter, List.countP_map, failures]
  refine List.countP_congr fun s hs => ?_
  have hgives := Gives.validate_one h ((find?_key_eq_some_iff hnodup).2 ⟨hs, rfl⟩)
  rw [Function.comp, hgives.eq, Bool.not_eq_true', Bool.not_eq_true', ← Bool.not_eq_true,
    ← Bool.not_eq_true, isOk_verdict, failures_singleton]

/-- All results of a scenario, if it is assembled, can be written to a folder. -/
def CanWrite (world after : World) (requirements : Requirements) (folder : String) (store : Store)
    (s : Scenario) (out : String) : Prop :=
  ∀ resolved, (assemble store s requirements).outcome = .ok resolved →
    (Results.writeAll world.environment.provenance out folder resolved (.ofScenario store s)
      after.files).1.isOk = true

/-- Results can be written to a folder which takes their files. -/
theorem canWrite_of_takes {place : Files.Place}
    (h : ∀ name ∈ Results.resultNames, after.files.Takes out place name) :
    CanWrite world after requirements folder store s out := by
  intro resolved _
  obtain ⟨files, hruns⟩ := Results.exists_runs_writeAll h
  rw [hruns]
  rfl

/-- A session succeeds, and the results of a scenario can be read in a folder afterwards. -/
def WritesResults (session : Session Unit) (world : World) (requirements : Requirements)
    (folder : String) (store : Store) (s : Scenario) (out : String) : Prop :=
  ∃ resolved files, (assemble store s requirements).outcome = .ok resolved ∧
    Ends session world (.ok ()) files ∧
    ∀ file ∈ Results.resultFiles world.environment.provenance folder resolved (.ofScenario store s),
      files.readText (Files.join out file.name) = .ok file.text

/-- A session fails, and there are no results in a folder afterwards. -/
def WritesNothing (session : Session Unit) (world : World) (out : String) : Prop :=
  ∃ failure files, Ends session world (.error failure) files ∧
    ∀ name ∈ Results.resultNames, files.isFile (Files.join out name) = false

/-- The validation of a store fails if and only if that of one of its scenarios does, and tells of
    how many it does, whatever other scenarios there are. The results of a scenario are written to
    a new folder if and only if its validation succeeds; otherwise nothing is written. -/
theorem validation_agrees (h : Provided settings folder world requirements store scenarios)
    (hrooted : world.files.tree.Rooted) :
    (scenarios.map Scenario.name).Nodup ∧
    Gives (validate settings folder none) world
      (verdict (failing settings folder world scenarios).length scenarios.length) ∧
    ((validate settings folder none world).1.isOk = true ↔
      ∀ s ∈ scenarios, (validate settings folder (some s.name) world).1.isOk = true) ∧
    ∀ s ∈ scenarios,
      (∃ failed ≤ 1, Gives (validate settings folder (some s.name)) world (verdict failed 1) ∧
        ∀ world' scenarios', s ∈ scenarios' →
          Provided settings folder world' requirements store scenarios' →
          Gives (validate settings folder (some s.name)) world' (verdict failed 1)) ∧
      ∀ out overwrite after, IsNew world.files after.files out →
        prepareOutput out settings overwrite true world = (.ok (), after) →
        CanWrite world after requirements folder store s out →
        let session := resolve settings folder s.name { folder := some out, overwrite }
        let isValid := (validate settings folder (some s.name) world).1.isOk = true
        (isValid → WritesResults session world requirements folder store s out) ∧
          (¬isValid → WritesNothing session world out) := by
  have hnodup := Scenario.nodup_names_of_loadAll h.scenarios
  have hone (s : Scenario) (hs : s ∈ scenarios) :=
    Gives.validate_one h ((find?_key_eq_some_iff hnodup).2 ⟨hs, rfl⟩)
  have hvalid (s : Scenario) (hs : s ∈ scenarios) :
      (validate settings folder (some s.name) world).1.isOk = true ↔
        (assemble store s requirements).outcome.isOk = true := by
    rw [(hone s hs).eq, isOk_verdict, failures_singleton]
  refine ⟨hnodup, length_failing h ▸ Gives.validate_all h, ?_, fun s hs => ⟨?_, ?_⟩⟩
  · rw [(Gives.validate_all h).eq, isOk_verdict, failures, List.countP_eq_zero]
    refine forall₂_congr fun s hs => ?_
    rw [hvalid s hs, Bool.not_eq_true', Bool.not_eq_false]
  · refine ⟨_, List.countP_le_length, hone s hs, fun world' scenarios' hs' h' => ?_⟩
    have hnodup' := Scenario.nodup_names_of_loadAll h'.scenarios
    exact Gives.validate_one h' ((find?_key_eq_some_iff hnodup').2 ⟨hs', rfl⟩)
  · intro out overwrite after hnew hprepare hwrites session isValid
    have hprepared := prepared_of_prepareOutput hrooted hnew hprepare
    have hfind := (find?_key_eq_some_iff hnodup).2 ⟨hs, rfl⟩
    constructor
    · intro hok
      obtain ⟨resolved, hassemble⟩ := exists_of_isOk ((hvalid s hs).1 hok)
      have hwrite := FileAction.runs_of_isOk (hwrites resolved hassemble)
      obtain ⟨place, hplace, -⟩ := hprepared.exists_place
      exact ⟨resolved, _, hassemble, resolve_ends_ok h hfind hprepared hprepare hassemble hwrite,
        Results.readText_of_writeAll hplace hwrite⟩
    · intro hnot
      rcases hassemble : (assemble store s requirements).outcome with error | resolved
      · exact ⟨_, _, resolve_ends_error h hfind hprepared hprepare hassemble,
          hprepared.isFile_eq_false hrooted hnew⟩
      · exact absurd ((hvalid s hs).2 (hassemble ▸ rfl)) hnot

/-- A world with a store of two scenarios in which the log runs. -/
def zonedWorld : World where
  files := Store.zonedFiles
  environment := {
    configFolder := "config", temporaryFolder := "temporary"
    provenance := { time := "now", build := [], platform := [] } }
  logger := .running (some .info) none

/-- The world after a folder has been prepared in it. -/
def zonedWorldWith (out : String) : World := (prepareOutput out {} false true zonedWorld).2

theorem provided_zonedWorld (h : Scenario.loadAll Store.zonedFiles "store" = .ok scenarios) :
    Provided {} "store" zonedWorld .bundled Store.zonedStore scenarios where
  canLog := .inl rfl
  requirements := rfl
  store := Store.load_zonedFiles
  scenarios := h

theorem rooted_zonedWorld : zonedWorld.files.tree.Rooted := by decide

/-- The path of a file which the store does without. -/
def missingFile : String := Files.join "store" Store.curvesFile

theorem prepareOutput_zonedWorld : ∀ out ∈ ["out", missingFile],
    prepareOutput out {} false true zonedWorld = (.ok (), zonedWorldWith out) := by
  intro out hout
  have hok : ∀ out ∈ ["out", missingFile],
      (prepareOutput out {} false true zonedWorld).1.isOk = true := by decide
  obtain ⟨_, hresult⟩ := exists_of_isOk (hok out hout)
  exact Prod.ext hresult rfl

/-- All that is new is the folder which has been prepared. -/
theorem tree_zonedWorldWith : ∀ out ∈ ["out", missingFile], ∃ place,
    (zonedWorldWith out).files.locate out = .ok place ∧ place ≠ [] ∧
      zonedWorld.files.tree.node? place = none ∧
      (zonedWorldWith out).files.tree = zonedWorld.files.tree.put place .folder := by
  rw [List.forall_mem_cons, List.forall_mem_singleton]
  exact ⟨⟨["out"], by decide, by decide, by decide, rfl⟩,
    ⟨["store", Store.curvesFile], by decide, by decide, by decide, rfl⟩⟩

theorem isNew_zonedWorld : ∀ out ∈ ["out", missingFile],
    IsNew zonedWorld.files (zonedWorldWith out).files out := by
  have hmissing : ∀ out ∈ ["out", missingFile], zonedWorld.files.doesExist out = false := by decide
  intro out hout
  obtain ⟨place, hplace, -, hfree, -⟩ := tree_zonedWorldWith out hout
  exact ⟨hmissing out hout, place, hplace, hfree⟩

theorem canWrite_zonedWorld : ∀ out ∈ ["out", missingFile],
    CanWrite zonedWorld (zonedWorldWith out) .bundled "store" Store.zonedStore s out := by
  have houts : ∀ out ∈ ["out", missingFile], '\x00' ∉ out.toList ∧ out.utf8ByteSize < 64 := by
    decide
  have hnames : ∀ name ∈ Results.resultNames, '\x00' ∉ name.toList ∧ name.utf8ByteSize < 64 := by
    decide
  intro out hout
  obtain ⟨place, hplace, hne, hfree, htree⟩ := tree_zonedWorldWith out hout
  refine canWrite_of_takes fun name hname => (?_ : Files.Takes _ out place name)
  have husable : Files.Usable out name := by
    obtain ⟨hnull, hshort⟩ := houts out hout
    obtain ⟨hnull', hshort'⟩ := hnames name hname
    exact Files.usable_of hnull hnull' (by rw [Files.nameLimit]; omega)
      (by rw [Files.pathLimit]; omega)
  have hfolder : (zonedWorldWith out).files.tree.node? place = some .folder := by
    rw [htree, Files.Tree.node?_put hne, if_pos rfl]
  have hnew : (zonedWorldWith out).files.tree.node? (place ++ [name]) = none := by
    rw [htree, Files.Tree.node?_put hne, if_neg (by simp), rooted_zonedWorld.node?_append hfree]
  exact {
    isName := Results.isName_of_mem_resultNames hname
    locate := Files.locate_join (Results.isName_of_mem_resultNames hname) husable hplace hfolder
    isFolder := hfolder
    free := by rw [hnew]; exact nofun }

/-- One of the two scenarios is valid, and its results are written to a new folder, even to one in
    the place of a file which the store does without. -/
theorem validation_agrees_zonedWorld : ∃ zones nothing,
    Provided {} "store" zonedWorld .bundled Store.zonedStore [zones, nothing] ∧
    zonedWorld.files.tree.Rooted ∧
    (validate {} "store" none zonedWorld).1 =
      .error (.stated "1 of 2 scenarios failed validation") ∧
    (validate {} "store" (some zones.name) zonedWorld).1 = .ok () ∧
    ∀ out ∈ ["out", missingFile],
      WritesResults (resolve {} "store" zones.name { folder := some out }) zonedWorld .bundled
          "store" Store.zonedStore zones out ∧
        WritesNothing (resolve {} "store" nothing.name { folder := some out }) zonedWorld out := by
  obtain ⟨zones, nothing, scenario, hload, -, -, hzones, -, hnothing⟩ :=
    Store.exists_scenarios_zonedFiles
  have h := provided_zonedWorld hload
  have hisOk : (assemble Store.zonedStore zones .bundled).outcome.isOk = true := by
    rw [hzones]
    rfl
  obtain ⟨hnodup, hall, -, hone⟩ := validation_agrees h rooted_zonedWorld
  have hfailing : (failing {} "store" zonedWorld [zones, nothing]).length = 1 := by
    rw [length_failing h]
    simp [failures, hisOk, hnothing]
  rw [hfailing] at hall
  have hverdict : verdict 1 2 = .error (.stated "1 of 2 scenarios failed validation") := by decide
  have hvalid {s : Scenario} (hs : s ∈ [zones, nothing]) :=
    (Gives.validate_one h ((find?_key_eq_some_iff hnodup).2 ⟨hs, rfl⟩)).eq
  have hzonesValid := hvalid List.mem_cons_self
  rw [failures_singleton.2 hisOk] at hzonesValid
  have hnothingInvalid := hvalid (List.mem_cons_of_mem _ List.mem_cons_self)
  refine ⟨zones, nothing, h, rooted_zonedWorld, hall.eq.trans hverdict, hzonesValid, ?_⟩
  intro out hout
  have hwrites {s : Scenario} (hs : s ∈ [zones, nothing]) :=
    (hone s hs).2 out false (zonedWorldWith out) (isNew_zonedWorld out hout)
      (prepareOutput_zonedWorld out hout) (canWrite_zonedWorld out hout)
  refine ⟨(hwrites List.mem_cons_self).1 (by rw [hzonesValid]; rfl),
    (hwrites (List.mem_cons_of_mem _ List.mem_cons_self)).2 ?_⟩
  rw [hnothingInvalid, isOk_verdict, failures_singleton, hnothing]
  exact Bool.false_ne_true

end Session

end CapacityExpansion
