import CapacityExpansion.Proofs.Results.DefaultFolders
import CapacityExpansion.Proofs.Session.Resolving

/-!
# Results in the default folder

The folder for the results of a scenario is emptied before the store is loaded, so whether there
is such a scenario is not known yet. If the folder is below that of the store, then nothing
outside of that is changed, whatever else happens. If it is not, since the name of the
scenario leads elsewhere, then what is there is deleted.

* `Sparing.prepareOutput`, `Sparing.resolveInto`: what is done with a folder;
* `resolve_default_spares`: where results go by default, and what is left alone;
* `exists_default_deletes`: what is deleted if the name leads elsewhere.
-/

namespace CapacityExpansion

namespace Sparing

open Files (Lexical)

variable {α : Type} {base : Lexical} {folder out name : String} {settings : Settings}

/-! ## Parts of sessions -/

theorem onFiles {action : FileAction α} (h : Sparing id base action) :
    Sparing World.files base (Session.onFiles action) := fun world => h world.files

theorem lookFiles (attempt : Files → Attempt α) :
    Sparing World.files base (Session.look attempt) := onFiles (look attempt)

theorem withinSession {session : Session α} (h : Sparing World.files base session)
    (context : String) : Sparing World.files base (Session.within context session) := h

theorem record (level : Level) (message : String) :
    Sparing World.files base (Session.record level message) := by
  intro world
  rw [(Session.Gives.record level message world).keeps.files]
  exact .refl _ _

theorem get : Sparing World.files base (get : Session World) := fun world => .refl _ world.files

/-- A change of something else than the files spares all of them. -/
theorem modify {change : World → World} (h : ∀ world, (change world).files = world.files) :
    Sparing World.files base (modify change : Session Unit) := by
  intro world
  change Files.Spares _ _ (change world).files
  rw [h]
  exact .refl _ _

/-- The log files are in the folder. -/
theorem openLog (h : (Lexical.ofText folder).Below base) (level : String) :
    Sparing World.files base (Session.openLog level (some folder)) := by
  have hfile {name : String} (hname : Files.IsName name) :
      Sparing World.files base (Session.createLogFile folder name) :=
    onFiles (writeText ((Lexical.below_join_of_isName hname).trans h) "")
  rw [Session.openLog]
  split
  · exact throw _
  · exact (hfile (by decide)).bind fun _ => (hfile (by decide)).bind fun _ => modify fun _ => rfl

theorem startLog (h : (Lexical.ofText folder).Below base) (level : String) :
    Sparing World.files base (Session.startLog level (some folder)) := by
  intro world
  by_cases hstarted : world.logger.isStarted = true
  · rw [Session.startLog_of_isStarted hstarted]
    exact .refl _ _
  · rw [Session.startLog_of_not_isStarted hstarted]
    exact openLog h _ { world with logger := .broken }

/-- The folder is prepared without a change to what is outside. -/
theorem prepareOutput (h : (Lexical.ofText folder).Below base) (overwrite : Bool) :
    Sparing World.files base (Session.prepareOutput folder settings overwrite true) := by
  refine (withinSession (onFiles (prepareFolder h _)) _).bind fun replaced => ?_
  refine (withinSession (startLog h _) _).bind fun _ => (record _ _).bind fun _ => ?_
  cases replaced
  · exact pure _
  · exact record _ _

theorem loadStore (folder : String) : Sparing World.files base (Session.loadStore folder) :=
  (withinSession (lookFiles _) _).bind fun _ => (record _ _).bind fun _ => pure _

theorem loadAll (folder : String) : Sparing World.files base (Session.loadAll folder) :=
  (loadStore folder).bind fun _ => (withinSession (lookFiles _) _).bind fun _ =>
    (record _ _).bind fun _ => pure _

theorem findScenario (scenarios : List Scenario) (name : String) :
    Sparing World.files base (Session.findScenario scenarios name) := by
  rw [Session.findScenario]
  split
  · exact pure _
  · exact throw _

theorem assembleLogged (store : Store) (s : Scenario) (requirements : Requirements) :
    Sparing World.files base (Session.assembleLogged store s requirements) := by
  refine (forM fun _ _ => record _ _).bind fun _ => ?_
  rcases (assemble store s requirements).outcome with error | resolved
  · exact pure _
  · exact (record _ _).bind fun _ => (forM fun _ _ => record _ _).bind fun _ => pure _

/-- The results are in the folder. -/
theorem resolveInto (h : (Lexical.ofText out).Below base) (folder name : String) :
    Sparing World.files base (Session.resolveInto settings folder name out) := by
  refine (record _ _).bind fun _ => (withinSession (lookFiles _) _).bind fun requirements => ?_
  refine (loadAll folder).bind fun ⟨store, scenarios⟩ => ?_
  refine (findScenario scenarios name).bind fun s => ?_
  refine (assembleLogged store s requirements).bind fun outcome => ?_
  rcases outcome with error | resolved
  · exact throw _
  · exact get.bind fun world => (onFiles (writeAll h _ _ _ _)).bind fun _ => record _ _

end Sparing

namespace Session

open Files (IsName Lexical)

variable {settings : Settings} {store scenario : String} {overwrite : Bool} {world : World}
  {place : Files.Place}

theorem resolve_default_eq {out : String}
    (h : Results.defaultFolder world.files store scenario settings.resultsRoot = .ok out) :
    resolve settings store scenario { overwrite } world =
      (prepareOutput out settings overwrite true >>= fun _ =>
        resolveInto settings store scenario out) world := by
  have hlook : (look fun files => Results.defaultFolder files store scenario settings.resultsRoot)
      world = (.ok out, world) := by
    rw [look, onFiles, FileAction.look, h]
  exact bind_of_ok hlook

/-- By default, results go to a folder with the name of the scenario in one with the name of the
    store. It is below the latter if and only if the name of the scenario is a path which leads
    there or comes back there, as the name of a file does. Then to resolve the scenario, with leave
    to overwrite and whether it succeeds or not, changes nothing that there is outside. -/
theorem resolve_default_spares (hnamed : world.files.tree.Named)
    (hstore : world.files.canonical store = .ok place) (hplace : place ≠ []) (settings : Settings)
    (scenario : String) (overwrite : Bool) :
    ∃ name out, place.getLast? = some name ∧
      Results.defaultFolder world.files store scenario settings.resultsRoot = .ok out ∧
      let base := Lexical.ofText (Files.join settings.resultsRoot name)
      ((Lexical.ofText out).Below base ↔
        if Files.isAbsolute scenario then (Lexical.ofText scenario).Below base
        else (Lexical.ofText scenario).ComesBack base) ∧
      (IsName scenario → (Lexical.ofText out).Below base) ∧
      ((Lexical.ofText out).Below base → Files.Spares (base.place world.files.current) world.files
        (resolve settings store scenario { overwrite } world).2.files) := by
  have hlast := List.getLast?_eq_some_getLast hplace
  have hname := Results.isName_of_canonical hnamed hstore hlast
  have hout := Results.defaultFolder_of_canonical hstore hlast scenario settings.resultsRoot
  refine ⟨_, _, hlast, hout, Results.below_join_iff (Files.join_ne_empty hname), ?_, ?_⟩
  · exact Lexical.below_join_of_isName
  · intro hbelow
    rw [resolve_default_eq hout]
    exact (Sparing.prepareOutput hbelow overwrite).bind
      (fun _ => Sparing.resolveInto hbelow store scenario) world

/-- The results of a scenario with a plain name are in the folder of the store. -/
theorem resolve_default_spares_zonedWorld :
    zonedWorld.files.tree.Named ∧ zonedWorld.files.canonical "store" = .ok ["store"] ∧
    Results.defaultFolder zonedWorld.files "store" "zones" "assembly_results" =
      .ok "assembly_results/store/zones" ∧
    Files.Spares ["assembly_results", "store"] zonedWorld.files
      (resolve {} "store" "zones" { overwrite := true } zonedWorld).2.files := by
  have hnamed : zonedWorld.files.tree.Named := by decide
  have hstore : zonedWorld.files.canonical "store" = .ok ["store"] := by decide
  obtain ⟨name, out, hname, hout, -, hbelow, hspares⟩ :=
    resolve_default_spares hnamed hstore (by decide) {} "zones" true
  obtain rfl : "store" = name := Option.some.inj hname
  have hpath : Results.defaultFolder zonedWorld.files "store" "zones" "assembly_results" =
      .ok "assembly_results/store/zones" :=
    (Results.defaultFolder_of_canonical hstore rfl _ _).trans
      (congrArg Except.ok (by decide))
  exact ⟨hnamed, hstore, hpath, hspares (hbelow (by decide))⟩

/-! ## Names which lead elsewhere -/

/-- If the store has no scenario with a name, then what is left behind is the folder which has been
    prepared, whatever else can be loaded. -/
theorem files_resolve_of_not_found (settings : Settings) (world : World) {out : String}
    (hout : Results.defaultFolder world.files store scenario settings.resultsRoot = .ok out)
    (hprepared : (prepareOutput out settings overwrite true world).1.isOk = true)
    (h : ∀ scenarios, Scenario.loadAll (prepareOutput out settings overwrite true world).2.files
      store = .ok scenarios → scenarios.find? (·.name == scenario) = none) :
    (resolve settings store scenario { overwrite } world).2.files =
      (prepareOutput out settings overwrite true world).2.files := by
  obtain ⟨_, hok⟩ := exists_of_isOk hprepared
  rcases hassembled : assembled settings store scenario
    (prepareOutput out settings overwrite true world).2.files with failure | ⟨store', s, resolved⟩
  · rw [resolve_default_eq hout, bind_of_ok (Prod.ext hok rfl),
      (Gives.resolveInto hassembled).keeps.files]
  · obtain ⟨-, scenarios, -, -, hscenarios, hs, -⟩ := assembled_ok_iff.1 hassembled
    rw [h scenarios hscenarios] at hs
    cases hs

/-- A world with a folder besides that of a store and that of its results. -/
def keptWorld : World := { zonedWorld with
  files.tree := (((((({} : Files.Tree).put ["store"] .folder).fill ["store"]
    [(Scenario.fileName, "nothing = \x7b\x7d\n")]).put ["assembly_results"] .folder).put
      ["assembly_results", "store"] .folder).put ["keep"] .folder).fill ["keep"]
        [("notes.csv", "")] }

/-- The name of a scenario can lead elsewhere: what is there is deleted if overwriting is allowed,
    although the store has no such scenario. -/
theorem exists_default_deletes :
    keptWorld.files.canonical "store" = .ok ["store"] ∧
    Results.defaultFolder keptWorld.files "store" "../../keep" "assembly_results" =
      .ok "assembly_results/store/../../keep" ∧
    ¬(Lexical.ofText "assembly_results/store/../../keep").Below
      (.ofText "assembly_results/store") ∧
    ¬(Lexical.ofText "keep/notes.csv").Below (.ofText "assembly_results/store") ∧
    keptWorld.files.doesExist "keep/notes.csv" = true ∧
    (resolve {} "store" "../../keep" { overwrite := true } keptWorld).2.files.doesExist
      "keep/notes.csv" = false := by
  have hout : Results.defaultFolder keptWorld.files "store" "../../keep" "assembly_results" =
      .ok "assembly_results/store/../../keep" := by decide
  have hscenarios : (Scenario.loadAll (prepareOutput "assembly_results/store/../../keep" {} true
      true keptWorld).2.files "store").toOption.all fun scenarios =>
        (scenarios.find? (·.name == "../../keep")).isNone := by decide +kernel
  have hprepared : (prepareOutput "assembly_results/store/../../keep" {} true true keptWorld).1.isOk
    = true := by decide
  have hgone : (prepareOutput "assembly_results/store/../../keep" {} true
      true keptWorld).2.files.doesExist "keep/notes.csv" = false := by decide
  have hfiles := files_resolve_of_not_found {} keptWorld hout hprepared fun scenarios hload => by
    rw [hload] at hscenarios
    exact Option.isNone_iff_eq_none.1 hscenarios
  refine ⟨by decide, hout, by decide, by decide, by decide, ?_⟩
  rw [hfiles]
  exact hgone

end Session

end CapacityExpansion
