import CapacityExpansion.Proofs.Files.Sparing
import CapacityExpansion.Proofs.Results.NewFolders

/-!
# The default folder for results

By default, the results of a scenario go to a folder with the name of the scenario, in one
with the name of the store. But the name of a scenario is any text, and is taken for a path: it
may go up, or start at the root. The folder is below that of the store if and only if this path
is, or comes back there. What is prepared and written in a folder leaves everything else alone.

* `defaultFolder_of_canonical`: the folder of an existing store;
* `below_join_iff`: when it is below the folder of the store;
* `Sparing.prepareFolder`, `Sparing.writeAll`: what is outside of a folder is spared.
-/

namespace CapacityExpansion

namespace Results

open Files (IsName Lexical)

variable {f : Files} {place : Files.Place} {root store scenario folder name : String}

/-! ## Where the folder is -/

/-- The folder of a store which is there has a name. -/
theorem isName_of_canonical (hnamed : f.tree.Named) (hstore : f.canonical store = .ok place)
    (hname : place.getLast? = some name) : IsName name := by
  obtain ⟨⟨_, node⟩, hfind, rfl⟩ := map_ok_iff.1 hstore
  obtain ⟨-, hnode, -⟩ := Files.find_ok_iff.1 hfind
  have hmem := List.mem_of_getLast? hname
  rw [Files.Tree.node?, if_neg (List.ne_nil_of_mem hmem), ← OrderedMap.mem_entries_iff] at hnode
  exact hnamed _ (List.mem_map_of_mem hnode) name hmem

theorem defaultFolder_of_canonical (hstore : f.canonical store = .ok place)
    (hname : place.getLast? = some name) (scenario root : String) :
    defaultFolder f store scenario root = .ok (Files.join (Files.join root name) scenario) := by
  rw [defaultFolder, bind_ok_iff]
  refine ⟨place, ?_, ?_⟩
  · rw [hstore]
    rfl
  · rw [hname]
    rfl

/-- The path of a scenario leads below the folder of its store if it is a path from the root which
    does, or a path which comes back there. -/
theorem below_join_iff (hfolder : folder ≠ "") :
    (Lexical.ofText (Files.join folder scenario)).Below (.ofText folder) ↔
      if Files.isAbsolute scenario then (Lexical.ofText scenario).Below (.ofText folder)
      else (Lexical.ofText scenario).ComesBack (.ofText folder) := by
  split
  · next habsolute => rw [Files.join, habsolute, Bool.true_or, if_pos rfl]
  · next hrelative =>
    rw [Lexical.ofText_join hfolder (eq_false_of_ne_true hrelative), Lexical.below_along_iff]

end Results

/-! ## What is outside of the folder -/

namespace Sparing

open Files (Lexical)

variable {base : Lexical} {folder : String}

/-- A folder is emptied and created without a change to what is outside. -/
theorem prepareFolder (h : (Lexical.ofText folder).Below base) (mayOverwrite : Bool) :
    Sparing id base (Results.prepareFolder folder mayOverwrite) := by
  refine (look _).bind fun occupied => ?_
  rcases occupied with _ | _ | _
  · exact (createFolders folder).bind fun _ => pure _
  · exact pure _
  · have hreplace : Sparing id base (do
        FileAction.within "Could not delete folder" (FileAction.removeFolder folder)
        FileAction.createFolders folder
        return true) :=
      ((removeFolder h).within _).bind fun _ => (createFolders folder).bind fun _ => pure _
    cases mayOverwrite
    · exact (throw _).bind fun _ => hreplace
    · exact hreplace

theorem writeFile (h : (Lexical.ofText folder).Below base) {file : Results.OutputFile}
    (hname : Files.IsName file.name) : Sparing id base (Results.writeFile folder file) :=
  (writeText ((Lexical.below_join_of_isName hname).trans h) file.text).within _

/-- So are results written. -/
theorem writeAll (h : (Lexical.ofText folder).Below base) (provenance : Results.Provenance)
    (store : String) (r : ResolvedScenario) (view : ScenarioView) :
    Sparing id base (Results.writeAll provenance folder store r view) := by
  have hnames : ∀ file ∈ Results.resultFiles provenance store r view, Files.IsName file.name :=
    fun file => Results.isName_of_mem_resultFiles
  rw [Results.resultFiles, List.forall_mem_cons] at hnames
  refine Sparing.bind ((writeText ((Lexical.below_join_of_isName hnames.1).trans h) _).within _)
    fun _ => ?_
  exact Sparing.forM fun file hfile => writeFile h (hnames.2 file hfile)

end Sparing

end CapacityExpansion
