import CapacityExpansion.Patch.Store
import CapacityExpansion.Proofs.Files.Filling
import CapacityExpansion.Proofs.Patch.Undoing

/-!
# What is built from a patched store

The files of a patched store are written into an empty folder one after the other:
the scenarios, copies of the files of rows, and then one text for each patch of a
file. Every patch starts from the file as it is in the store, which stays as it was
while the folder is filled. So it is the last patch of a file which decides, and of
those before it nothing is left. A file which no patch names is a copy.

* `FilePatch.Makes`: a patch makes a text from the file of a store;
* `exists_fills_of_build`: what is written when a patched store is built;
* `build_last_patch_decides`: what is in the folder then;
* `exists_build_loses_row`: a row which one of two patches adds may not be.
-/

namespace CapacityExpansion.Patch

open Csv (Reads)
open Files (IsName Fills Content Place)

/-- A patch makes a text from the file of a store. -/
def FilePatch.Makes (filePatch : FilePatch) (f : Files) (base text : String) : Prop :=
  ∃ before, filePatch.baseText f base = .ok before ∧ filePatch.patchText before = .ok text

/-- A file which is written is what a patch makes. -/
def FilePatch.Writes (f : Files) (base : String) (filePatch : FilePatch) (file : String × Content) :
    Prop :=
  file.1 = filePatch.fileName ∧ ∃ text, filePatch.Makes f base text ∧ file.2 = .text text

/-- A file which is written is the copy of a file of rows. -/
def IsCopy (f : Files) (base : String) (file : String × Content) : Prop :=
  isRowFile file.1 = true ∧ f.read (Files.join base file.1) = .ok file.2

section Steps

-- The files are `f` before the folder is filled, `g` before a step and `f'` after it.
variable {f g f' : Files} {base folder : String} {place place' : Place}
  {written : List (String × Content)}
  (hplace : f.locate folder = .ok place) (hbase : f.locate base = .ok place') (hne : place' ≠ place)
  (hfills : Fills folder f written g)
include hplace hbase hne hfills

/-! ## Patches of files -/

/-- What a patch starts from is not changed while the folder is filled. -/
theorem baseText_ok_iff_of_fills {filePatch : FilePatch} (hname : IsName filePatch.fileName)
    {text : String} : filePatch.baseText g base = .ok text ↔ filePatch.baseText f base = .ok text := by
  have hread (content : Content) : g.read (Files.join base filePatch.fileName) = .ok content ↔
      f.read (Files.join base filePatch.fileName) = .ok content :=
    hfills.read_join_iff hplace hbase hne hname
  have hisFile : g.isFile (Files.join base filePatch.fileName) =
      f.isFile (Files.join base filePatch.fileName) := by
    rw [Bool.eq_iff_iff, Files.isFile_iff, Files.isFile_iff]
    exact exists_congr hread
  simp only [FilePatch.baseText, hisFile]
  split
  · rw [Attempt.ofFiles, Attempt.ofFiles, mapError_ok_iff, mapError_ok_iff, Files.readText_ok_iff,
      Files.readText_ok_iff, hread]
  · rfl

/-- Saving a patch writes the text which it makes. -/
theorem exists_fills_of_save {filePatch : FilePatch} (hname : IsName filePatch.fileName)
    (h : (filePatch.save base folder).Runs g () f') :
    ∃ file, filePatch.Writes f base file ∧ Fills folder g [file] f' := by
  rw [FilePatch.save, FileAction.bind_runs_iff] at h
  obtain ⟨before, _, hlook, h⟩ := h
  obtain ⟨hbefore, rfl⟩ := FileAction.look_runs_iff.1 hlook
  rw [FileAction.bind_runs_iff] at h
  obtain ⟨text, _, hlook', h⟩ := h
  obtain ⟨htext, rfl⟩ := FileAction.look_runs_iff.1 hlook'
  rw [Attempt.within, mapError_ok_iff, mapError_ok_iff] at htext
  rw [FileAction.writeText, FileAction.change_runs_iff] at h
  rw [baseText_ok_iff_of_fills hplace hbase hne hfills hname] at hbefore
  exact ⟨_, ⟨rfl, text, ⟨before, hbefore, htext⟩, rfl⟩, .singleton hname h⟩

/-- Saving some patches writes what each one makes from the store as it was at first. -/
theorem exists_fills_of_forM_save {filePatches : List FilePatch}
    (hnames : ∀ filePatch ∈ filePatches, IsName filePatch.fileName)
    (h : (filePatches.forM fun filePatch => filePatch.save base folder).Runs g () f') :
    ∃ patched, List.Forall₂ (FilePatch.Writes f base) filePatches patched ∧
      Fills folder g patched f' := by
  induction filePatches generalizing g written with
  | nil =>
    obtain ⟨-, rfl⟩ := FileAction.pure_runs_iff.1 h
    exact ⟨[], .nil, .nil g⟩
  | cons filePatch filePatches ih =>
    rw [List.forall_mem_cons] at hnames
    obtain ⟨_, next, hfirst, hrest⟩ := FileAction.bind_runs_iff.1 h
    -- The folder is filled further, and the store is still as it was for the next patches.
    obtain ⟨file, hfile, hnext⟩ := exists_fills_of_save hplace hbase hne hfills hnames.1 hfirst
    obtain ⟨patched, hpatched, hlast⟩ := ih (hfills.append hnext) hnames.2 hrest
    exact ⟨file :: patched, .cons hfile hpatched, hnext.append hlast⟩

/-! ## Copies -/

variable {patch : StorePatch} (hpatch : patch.base = base)
include hpatch

/-- A file of rows is copied as it was at first, and nothing else is. -/
theorem exists_fills_of_copyRows {name : String} (hname : IsName name)
    (h : (patch.copyRows folder name).Runs g () f') :
    ∃ copies, (∀ file, file ∈ copies ↔ file.1 = name ∧ IsCopy f base file) ∧
      Fills folder g copies f' := by
  subst hpatch
  rw [StorePatch.copyRows, FileAction.bind_runs_iff] at h
  obtain ⟨isFile, _, hlook, h⟩ := h
  obtain ⟨hisFile, rfl⟩ := FileAction.look_runs_iff.1 hlook
  rw [Except.ok.injEq] at hisFile
  have hread (content : Content) : g.read (Files.join patch.base name) = .ok content ↔
      f.read (Files.join patch.base name) = .ok content :=
    hfills.read_join_iff hplace hbase hne hname
  split at h
  · next hcopied =>
    rw [Bool.and_eq_true] at hcopied
    rw [FileAction.change_runs_iff, Files.copy_ok_iff] at h
    obtain ⟨content, hcontent, hwrite⟩ := h
    rw [hread] at hcontent
    refine ⟨[(name, content)], fun file => ?_, .singleton hname hwrite⟩
    rw [List.mem_singleton]
    constructor
    · rintro rfl
      exact ⟨rfl, hcopied.1, hcontent⟩
    · rintro ⟨rfl, -, hfile⟩
      rw [hcontent, Except.ok.injEq] at hfile
      rw [hfile]
  · next hcopied =>
    obtain ⟨-, rfl⟩ := FileAction.pure_runs_iff.1 h
    refine ⟨[], fun file => ⟨nofun, ?_⟩, .nil g⟩
    rintro ⟨rfl, hrows, hfile⟩
    refine absurd ?_ hcopied
    rw [hrows, Bool.true_and, ← hisFile, Files.isFile_iff]
    exact ⟨file.2, (hread file.2).2 hfile⟩

theorem exists_fills_of_forM_copyRows {names : List String} (hnames : ∀ name ∈ names, IsName name)
    (h : (names.forM (patch.copyRows folder)).Runs g () f') :
    ∃ copies, (∀ file, file ∈ copies ↔ file.1 ∈ names ∧ IsCopy f base file) ∧
      Fills folder g copies f' := by
  induction names generalizing g written with
  | nil =>
    obtain ⟨-, rfl⟩ := FileAction.pure_runs_iff.1 h
    exact ⟨[], by simp, .nil g⟩
  | cons name names ih =>
    rw [List.forall_mem_cons] at hnames
    obtain ⟨_, next, hfirst, hrest⟩ := FileAction.bind_runs_iff.1 h
    obtain ⟨copies, hcopies, hnext⟩ :=
      exists_fills_of_copyRows hplace hbase hne hfills hpatch hnames.1 hfirst
    obtain ⟨more, hmore, hlast⟩ := ih (hfills.append hnext) hnames.2 hrest
    refine ⟨copies ++ more, fun file => ?_, hnext.append hlast⟩
    rw [List.mem_append, hcopies, hmore, List.mem_cons, or_and_right]

end Steps

/-! ## What is built -/

variable {patch : StorePatch} {folder : String} {f f' : Files}

theorem isName_scenarios : IsName Scenario.fileName := by decide

theorem isRowFile_scenarios : isRowFile Scenario.fileName = false := by decide

/-- The scenarios of the store are read, and scenarios are written. -/
theorem exists_fills_of_buildScenarios (h : (patch.buildScenarios folder).Runs f () f') :
    (∃ before, f.read (Files.join patch.base Scenario.fileName) = .ok before) ∧
      ∃ after, Fills folder f [(Scenario.fileName, after)] f' := by
  rw [StorePatch.buildScenarios] at h
  split at h
  · rw [FileAction.within_runs_iff, FileAction.change_runs_iff, Files.copy_ok_iff] at h
    obtain ⟨content, hcontent, hwrite⟩ := h
    exact ⟨⟨content, hcontent⟩, content, .singleton isName_scenarios hwrite⟩
  · rw [FileAction.bind_runs_iff] at h
    obtain ⟨text, _, hask, h⟩ := h
    rw [FileAction.within_runs_iff, FileAction.ask_runs_iff, Files.readText_ok_iff] at hask
    obtain ⟨htext, rfl⟩ := hask
    obtain ⟨merged, _, hlook, hwrite⟩ := FileAction.bind_runs_iff.1 h
    obtain ⟨-, rfl⟩ := FileAction.look_runs_iff.1 hlook
    rw [FileAction.writeText, FileAction.change_runs_iff] at hwrite
    exact ⟨⟨.text text, htext⟩, .text merged, .singleton isName_scenarios hwrite⟩

/-- When a patched store is built into an empty folder, its scenarios are written, then copies of
    its files of rows, and then what each patch of a file makes of the file in the store. -/
theorem exists_fills_of_build (hnamed : f.tree.Named)
    (hnames : ∀ filePatch ∈ patch.filePatches, IsName filePatch.fileName)
    (hempty : f.list folder = .ok []) (h : (patch.build folder).Runs f () f') :
    ∃ scenarios copies patched,
      Fills folder f (((Scenario.fileName, scenarios) :: copies) ++ patched) f' ∧
      (∀ name content, IsName name →
        ((name, content) ∈ copies ↔ IsCopy f patch.base (name, content))) ∧
      List.Forall₂ (FilePatch.Writes f patch.base) patch.filePatches patched := by
  rw [StorePatch.build, FileAction.bind_runs_iff] at h
  obtain ⟨_, g, hscenarios, h⟩ := h
  obtain ⟨⟨before, hbefore⟩, scenarios, hfills⟩ := exists_fills_of_buildScenarios hscenarios
  rw [FileAction.bind_runs_iff] at h
  obtain ⟨names, _, hask, h⟩ := h
  obtain ⟨hlist, rfl⟩ := FileAction.ask_runs_iff.1 hask
  obtain ⟨_, next, hcopies, hpatches⟩ := FileAction.bind_runs_iff.1 h
  obtain ⟨place, hplace, -, hchildren⟩ := Files.list_ok_iff.1 hempty
  obtain ⟨place', hbase, hfolder, rfl⟩ := Files.list_ok_iff.1 hlist
  rw [← hfills.sameFolders.locate_ok_iff] at hbase
  rw [← hfills.sameFolders.node?] at hfolder
  -- The folder is another one than that of the store, in which there are scenarios.
  have hne : place' ≠ place := by
    rintro rfl
    have hlist' := Files.list_ok_iff.2 ⟨place', hbase, hfolder, hchildren⟩
    exact List.not_mem_nil (Files.mem_list_of_read isName_scenarios hlist' hbefore)
  have hchildrenNamed : ∀ name ∈ g.tree.children place', IsName name := by
    intro name hname
    rw [hfills.mem_children_iff hplace hne] at hname
    exact hnamed.isName_of_mem_children hname
  obtain ⟨copies, hmem, hfills'⟩ :=
    exists_fills_of_forM_copyRows hplace hbase hne hfills rfl hchildrenNamed hcopies
  obtain ⟨patched, hpatched, hfills''⟩ :=
    exists_fills_of_forM_save hplace hbase hne (hfills.append hfills') hnames hpatches
  refine ⟨scenarios, copies, patched, (hfills.append hfills').append hfills'', ?_, hpatched⟩
  intro name content hname
  rw [hmem, and_iff_right_of_imp]
  exact fun hcopy => Files.mem_list_of_read hname hlist
    ((hfills.read_join_iff hplace hbase hne hname).2 hcopy.2)

/-- The text which a patch makes is a table, with all rows which the patch adds and none which it
    deletes. -/
theorem FilePatch.Makes.exists_rows {filePatch : FilePatch} {base text fileName : String}
    {changes : List Change} (hmade : ofChanges fileName changes = .ok filePatch)
    (h : filePatch.Makes f base text) :
    ∃ before header rows, filePatch.baseText f base = .ok before ∧ Reads before header rows ∧
      filePatch.Fits header rows ∧ text = Csv.write (header :: filePatch.outcome rows) ∧
      (∀ name names, header = name :: names → name.toList.head? ≠ some '\uFEFF' →
        Reads text header (filePatch.outcome rows)) ∧
      (∀ row ∈ filePatch.added.elements, row ∈ filePatch.outcome rows) ∧
      ∀ row ∈ filePatch.deleted.elements, row ∉ filePatch.outcome rows := by
  obtain ⟨before, hbefore, htext⟩ := h
  obtain ⟨header, rows, hreads⟩ := exists_reads_of_patchText htext
  obtain ⟨hfits, hwritten⟩ := (patchText_ok_iff hreads).1 htext
  refine ⟨before, header, rows, hbefore, hreads, hfits, hwritten.symm, ?_, ?_, ?_⟩
  · rintro name names rfl hname
    exact reads_patchText hreads hname (fun row => trimmed_added hmade) htext
  · exact fun row hrow => List.mem_append_right _ hrow
  · intro row hrow
    rw [outcome_eq, List.mem_append, not_or]
    refine ⟨fun hstays => ?_, (hfits.deletable row hrow).2⟩
    exact of_decide_eq_true (List.mem_filter.1 hstays).2 hrow

/-- A patched store is built into an empty folder. There, a file which some patches name has the
    text which the last one of them makes from the file in the store: it holds all rows which this
    patch adds, and none which it deletes, and of the patches before it there is nothing in it. A
    file of rows which no patch names is a copy of the one in the store. -/
theorem build_last_patch_decides (hnamed : f.tree.Named)
    (hmade : ∀ filePatch ∈ patch.filePatches, IsName filePatch.fileName ∧
      ∃ changes, FilePatch.ofChanges filePatch.fileName changes = .ok filePatch)
    (hempty : f.list folder = .ok []) (h : (patch.build folder).Runs f () f') :
    (∀ earlier last later, patch.filePatches = earlier ++ last :: later →
      (∀ other ∈ later, other.fileName ≠ last.fileName) →
      ∃ before header rows text, last.baseText f patch.base = .ok before ∧
        Reads before header rows ∧ last.Fits header rows ∧
        f'.readText (Files.join folder last.fileName) = .ok text ∧
        text = Csv.write (header :: last.outcome rows) ∧
        (∀ name names, header = name :: names → name.toList.head? ≠ some '\uFEFF' →
          Reads text header (last.outcome rows)) ∧
        (∀ row ∈ last.added.elements, row ∈ last.outcome rows) ∧
        ∀ row ∈ last.deleted.elements, row ∉ last.outcome rows) ∧
    ∀ name, IsName name → isRowFile name = true →
      f.isFile (Files.join patch.base name) = true →
      (∀ filePatch ∈ patch.filePatches, filePatch.fileName ≠ name) →
      ∃ content, f.read (Files.join patch.base name) = .ok content ∧
        f'.read (Files.join folder name) = .ok content := by
  obtain ⟨place, hplace, -⟩ := Files.list_ok_iff.1 hempty
  obtain ⟨scenarios, copies, patched, hfills, hcopies, hpatched⟩ :=
    exists_fills_of_build hnamed (fun filePatch hmem => (hmade filePatch hmem).1) hempty h
  constructor
  · intro earlier last later hsplit hlater
    rw [hsplit] at hpatched
    obtain ⟨first, rest, rfl, -, hrest⟩ := exists_append_of_forall₂ hpatched
    obtain _ | @⟨_, ⟨_, _⟩, _, rest, ⟨rfl, text, hmakes, rfl⟩, hrest⟩ := hrest
    have hother : ∀ file ∈ rest, file.1 ≠ last.fileName := by
      intro file hfile
      obtain ⟨other, hmem, hwrites⟩ := exists_of_mem_forall₂ hrest hfile
      rw [hwrites.1]
      exact hlater other hmem
    -- The text of the last patch is written over all that was there under its name.
    rw [← List.append_assoc] at hfills
    have hread := Files.readText_ok_iff.2 (hfills.read_last hplace hother)
    obtain ⟨-, changes, hchanges⟩ := hmade last (hsplit ▸ List.mem_append_right _ List.mem_cons_self)
    obtain ⟨before, header, rows, hbefore, hreads, hfits, hrest⟩ := hmakes.exists_rows hchanges
    exact ⟨before, header, rows, text, hbefore, hreads, hfits, hread, hrest⟩
  · intro name hname hrows hisFile hunpatched
    obtain ⟨content, hcontent⟩ := Files.isFile_iff.1 hisFile
    refine ⟨content, hcontent, hfills.read_of_forall hplace ?_ ?_⟩
    · have hcopy := (hcopies name content hname).2 ⟨hrows, hcontent⟩
      exact ⟨_, List.mem_append_left _ (List.mem_cons_of_mem _ hcopy), rfl⟩
    · rintro ⟨_, content'⟩ hmem rfl
      rw [List.mem_append, List.mem_cons] at hmem
      rcases hmem with (hscenarios | hcopy) | hpatch
      · rw [(Prod.mk.inj hscenarios).1, isRowFile_scenarios] at hrows
        cases hrows
      · have hcopied := ((hcopies _ _ hname).1 hcopy).2
        exact Except.ok.inj (hcopied.symm.trans hcontent)
      · obtain ⟨filePatch, hmem, hwrites⟩ := exists_of_mem_forall₂ hpatched hpatch
        exact absurd hwrites.1.symm (hunpatched filePatch hmem)

/-- What it says where some entities are. -/
def twoZones : String := "entity,zone\nwind,north\ngas_ct,south\n"

theorem reads_twoZones :
    Reads twoZones ["entity", "zone"] [["wind", "north"], ["gas_ct", "south"]] :=
  ⟨by decide, by decide⟩

/-- A store with two files of rows, and an empty folder. -/
def storeFiles : Files where
  tree := (((({} : Files.Tree).putFile ["store", "scenarios.toml"] (.text "[base]\n")).putFile
    ["store", "entity_zones.csv"] (.text twoZones)).putFile
      ["store", "entity_members.csv"] (.text "entity\nwind\n")).put ["out"] .folder

/-- A patch which adds a row to one of the files. -/
def addition : FilePatch := { fileName := "entity_zones.csv", added := .ofList [["solar", "south"]] }

/-- A patch which deletes a row of the same file. -/
def deletion : FilePatch :=
  { fileName := "entity_zones.csv", deleted := .ofList [["gas_ct", "south"]] }

/-- Both of them. -/
def bothChanges : StorePatch := { base := "store", filePatches := [addition, deletion] }

theorem runs_bothChanges :
    (bothChanges.build "out").Runs storeFiles () (bothChanges.build "out" storeFiles).2 :=
  FileAction.runs_of_isOk (by decide +kernel)

/-- A row which one of the two patches adds, and which none of them deletes, is not in the file
    which is built. -/
theorem exists_build_loses_row : ∃ built filePatch row text header rows,
    storeFiles.list "out" = .ok [] ∧ (bothChanges.build "out").Runs storeFiles () built ∧
    filePatch ∈ bothChanges.filePatches ∧ row ∈ filePatch.added.elements ∧
    (∀ other ∈ bothChanges.filePatches, row ∉ other.deleted.elements) ∧
    built.readText (Files.join "out" filePatch.fileName) = .ok text ∧ Reads text header rows ∧
    row ∉ rows := by
  refine ⟨_, addition, ["solar", "south"], "entity,zone\nwind,north\n", ["entity", "zone"],
    [["wind", "north"]], by decide, runs_bothChanges, List.mem_cons_self, by decide,
    by decide, by decide +kernel, ⟨by decide, by decide⟩, by decide⟩

/-- The deletion decides what is in this file, and the other file is copied. -/
theorem build_last_patch_decides_bothChanges : ∃ built,
    (bothChanges.build "out").Runs storeFiles () built ∧
    built.readText "out/entity_zones.csv" = .ok "entity,zone\nwind,north\n" ∧
    built.read "out/entity_members.csv" = storeFiles.read "store/entity_members.csv" := by
  have hmade : ∀ filePatch ∈ bothChanges.filePatches, IsName filePatch.fileName ∧
      ∃ changes, FilePatch.ofChanges filePatch.fileName changes = .ok filePatch := by
    rw [bothChanges, List.forall_mem_cons, List.forall_mem_singleton]
    exact ⟨⟨by decide, [.add "solar,south"], rfl⟩, by decide, [.delete "gas_ct,south"], rfl⟩
  obtain ⟨hpatched, hcopied⟩ := build_last_patch_decides (by decide) hmade
    (by decide) runs_bothChanges
  obtain ⟨before, header, rows, text, hbefore, hreads, -, htext, hwritten, -⟩ :=
    hpatched [addition] deletion [] rfl nofun
  obtain ⟨content, hcontent, hcopy⟩ := hcopied "entity_members.csv" (by decide) (by decide)
    (by decide) (by decide)
  have hbase : deletion.baseText storeFiles bothChanges.base = .ok twoZones := by decide
  obtain rfl := Except.ok.inj (hbase.symm.trans hbefore)
  obtain rfl := Option.some.inj (reads_twoZones.header.symm.trans hreads.header)
  obtain rfl := Except.ok.inj (reads_twoZones.rows.symm.trans hreads.rows)
  refine ⟨_, runs_bothChanges, ?_, hcopy.trans hcontent.symm⟩
  have houtcome : Csv.write (["entity", "zone"] ::
      deletion.outcome [["wind", "north"], ["gas_ct", "south"]]) = "entity,zone\nwind,north\n" := by
    decide
  rw [← houtcome, ← hwritten]
  exact htext

end CapacityExpansion.Patch
