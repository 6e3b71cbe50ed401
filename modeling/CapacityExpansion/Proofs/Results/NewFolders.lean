import CapacityExpansion.Proofs.Files.Growing
import CapacityExpansion.Results.Folder

/-!
# Results in a new folder

If the folder for the results is not there yet, then it is created and nothing is
deleted for it. What is written to it afterwards are the metadata and the tables, each
under a name of its own, so that all of them can be read in the end.

* `createFolders_of_missing`: how a new folder is prepared;
* `resultFiles`: all files of results, with their texts;
* `exists_runs_writeAll`: a folder which takes the files of results;
* `readText_of_writeAll`: what has been written can be read.
-/

namespace CapacityExpansion.Results

open Files (Fills IsName)

variable {f f' : Files} {folder store : String} {mayOverwrite replaced : Bool}
  {provenance : Provenance} {r : ResolvedScenario} {view : ScenarioView}

/-! ## Preparing the folder -/

/-- A folder which is not there is created. -/
theorem createFolders_of_missing (hmissing : f.doesExist folder = false)
    (h : prepareFolder folder mayOverwrite f = (.ok replaced, f')) :
    f' = (f.createFolders folder).1 := by
  have hoccupied : isOccupied? f folder = none := by
    rw [isOccupied?]
    rcases hlist : f.list folder with problem | names
    · rfl
    · obtain ⟨place, hplace, hnode, -⟩ := Files.list_ok_iff.1 hlist
      rw [Files.doesExist, Files.find_ok_iff.2 ⟨hplace, hnode, fun _ => rfl⟩] at hmissing
      cases hmissing
  obtain ⟨occupied, g, hlook, h⟩ := FileAction.bind_runs_iff.1 h
  obtain ⟨hoccupied', rfl⟩ := FileAction.look_runs_iff.1 hlook
  obtain rfl := hoccupied.symm.trans (Except.ok.inj hoccupied')
  obtain ⟨_, g, hcreate, h⟩ := FileAction.bind_runs_iff.1 h
  obtain ⟨-, rfl⟩ := FileAction.pure_runs_iff.1 h
  exact (congrArg Prod.snd hcreate).symm

/-! ## Writing the results -/

/-- The files of results, with their texts. -/
def resultFiles (provenance : Provenance) (store : String) (r : ResolvedScenario)
    (view : ScenarioView) : List OutputFile :=
  { name := metadataFile, text := Toml.write (metadata provenance store r) } :: tables r view

/-- The names of the files of results. -/
def resultNames : List String :=
  [metadataFile, "timepoints.csv", "horizons.csv", "scenario_view.csv", "fragments.csv",
    "projects.csv", "heat_rate_curves.csv", "warnings.csv"]

theorem map_name_resultFiles (provenance : Provenance) (store : String) (r : ResolvedScenario)
    (view : ScenarioView) :
    (resultFiles provenance store r view).map OutputFile.name = resultNames := rfl

theorem isName_of_mem_resultNames {name : String} (h : name ∈ resultNames) : IsName name := by
  revert name
  decide

theorem nodup_resultNames : resultNames.Nodup := by decide

/-- Files which are written one after the other fill their folder. -/
theorem fills_of_forM {files : List OutputFile} (hnames : ∀ file ∈ files, IsName file.name)
    (h : (files.forM (writeFile folder)).Runs f () f') :
    Fills folder f (files.map fun file => (file.name, .text file.text)) f' := by
  induction files generalizing f with
  | nil =>
    obtain ⟨-, rfl⟩ := FileAction.pure_runs_iff.1 h
    exact .nil f
  | cons file files ih =>
    rw [List.forall_mem_cons] at hnames
    obtain ⟨_, g, hwrite, h⟩ := FileAction.bind_runs_iff.1 h
    exact .cons hnames.1 (FileAction.change_runs_iff.1 (FileAction.within_runs_iff.1 hwrite))
      (ih hnames.2 h)

theorem isName_of_mem_resultFiles {file : OutputFile}
    (h : file ∈ resultFiles provenance store r view) : IsName file.name := by
  apply isName_of_mem_resultNames
  rw [← map_name_resultFiles provenance store r view]
  exact List.mem_map_of_mem h

theorem fills_of_writeAll (h : (writeAll provenance folder store r view).Runs f () f') :
    Fills folder f ((resultFiles provenance store r view).map fun file =>
      (file.name, .text file.text)) f' := by
  have hnames (file : OutputFile) (hfile : file ∈ resultFiles provenance store r view) :
      IsName file.name := isName_of_mem_resultFiles hfile
  rw [resultFiles, List.forall_mem_cons] at hnames
  obtain ⟨_, g, hwrite, h⟩ := FileAction.bind_runs_iff.1 h
  have hwrite := FileAction.change_runs_iff.1 (FileAction.within_runs_iff.1 hwrite)
  have hrest := fills_of_forM hnames.2 h
  simp only [resultFiles, List.map_cons]
  exact .cons hnames.1 hwrite hrest

/-- Files can be written one after the other to a folder which takes them. -/
theorem exists_runs_of_forM {place : Files.Place} {files : List OutputFile}
    (h : ∀ file ∈ files, f.Takes folder place file.name) :
    ∃ f', (files.forM (writeFile folder)).Runs f () f' := by
  induction files generalizing f with
  | nil => exact ⟨f, FileAction.pure_runs_iff.2 ⟨rfl, rfl⟩⟩
  | cons file files ih =>
    rw [List.forall_mem_cons] at h
    have hwrite := h.1.write_eq (.text file.text)
    obtain ⟨f', hrest⟩ := ih fun other hother =>
      (h.2 other hother).of_sameFolders (.of_write hwrite)
    exact ⟨f', FileAction.bind_runs_iff.2
      ⟨(), _, FileAction.within_runs_iff.2 (FileAction.change_runs_iff.2 hwrite), hrest⟩⟩

/-- All results can be written to a folder which takes them. -/
theorem exists_runs_writeAll {place : Files.Place}
    (h : ∀ name ∈ resultNames, f.Takes folder place name) :
    ∃ f', (writeAll provenance folder store r view).Runs f () f' := by
  have hfiles : ∀ file ∈ resultFiles provenance store r view, f.Takes folder place file.name := by
    intro file hfile
    apply h
    rw [← map_name_resultFiles provenance store r view]
    exact List.mem_map_of_mem hfile
  rw [resultFiles, List.forall_mem_cons] at hfiles
  have hwrite := hfiles.1.write_eq (.text (Toml.write (metadata provenance store r)))
  obtain ⟨f', hrest⟩ := exists_runs_of_forM fun file hfile =>
    (hfiles.2 file hfile).of_sameFolders (.of_write hwrite)
  exact ⟨f', FileAction.bind_runs_iff.2
    ⟨(), _, FileAction.within_runs_iff.2 (FileAction.change_runs_iff.2 hwrite), hrest⟩⟩

/-- All results which have been written can be read. -/
theorem readText_of_writeAll {place : Files.Place} (hplace : f.locate folder = .ok place)
    (h : (writeAll provenance folder store r view).Runs f () f') :
    ∀ file ∈ resultFiles provenance store r view,
      f'.readText (Files.join folder file.name) = .ok file.text := by
  intro file hfile
  have hnodup : ((resultFiles provenance store r view).map OutputFile.name).Nodup :=
    nodup_resultNames
  refine Files.readText_ok_iff.2 ((fills_of_writeAll h).read_of_forall hplace
    ⟨_, List.mem_map_of_mem hfile, rfl⟩ fun written hwritten hname => ?_)
  obtain ⟨other, hother, rfl⟩ := List.mem_map.1 hwritten
  rw [List.inj_on_of_nodup_map hnodup hother hfile hname]

end CapacityExpansion.Results
