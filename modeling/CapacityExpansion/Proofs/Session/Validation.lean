import CapacityExpansion.Proofs.Data.Failure
import CapacityExpansion.Proofs.Session.Running
import CapacityExpansion.Proofs.Toml.Documents
import CapacityExpansion.Session.Commands

/-!
# Validating scenarios

All scenarios of a store are assembled, one after the other, each one in the same way
as if it were the only one. So the validation of a store fails if and only if that of one
of its scenarios does, and says of how many it does.

* `Scenario.nodup_names_of_loadAll`: the names of scenarios are distinct;
* `Provided`, `loaded`: what the commands on a store load;
* `Gives.validate_all`, `Gives.validate_one`: what validation gives.
-/

namespace CapacityExpansion

/-! ## Names of scenarios -/

namespace Toml.Format

variable {σ : Type} {format : Format σ} {record : σ}

/-- What holds before any field is given and is kept by every field holds of what is read. -/
theorem decoder_invariant (P : σ → Prop) (hinitial : P format.initial)
    (hfields : ∀ field ∈ format.fields, ∀ v record record', P record →
      field.set v record = .ok record' → P record') {v : Value}
    (h : format.decoder v = .ok record) : P record := by
  have htable : ∀ t, format.ofTable t = .ok record → P record := by
    intro t ht
    obtain ⟨filled, hfilled, ht⟩ := bind_ok_iff.1 ht
    split at ht
    · cases ht
    · cases ht
      refine foldlM_invariant P (fun before hbefore entry _ after hafter => ?_) hinitial hfilled
      rw [setField] at hafter
      split at hafter
      · next field hfield =>
        exact hfields field (List.mem_of_find?_eq_some hfield) entry.2 before after hbefore hafter
      · split at hafter
        · cases hafter
        · cases hafter
          exact hbefore
  rw [decoder.eq_def] at h
  split at h
  · refine foldlM_invariant P (fun before hbefore p hp after hafter => ?_) hinitial h
    exact hfields p.1 (List.of_mem_zip hp).1 p.2 before after hbefore hafter
  · exact htable _ h
  · cases h

end Toml.Format

namespace Scenario

/-- A scenario has the name under which it is defined. -/
theorem name_eq_of_decoder {name : String} {v : Toml.Value} {s : Scenario}
    (h : (format name).decoder v = .ok s) : s.name = name := by
  refine Toml.Format.decoder_invariant (fun s : Scenario => s.name = name) rfl ?_ h
  simp only [format, List.forall_mem_cons, Toml.field, map_ok_iff]
  refine ⟨?_, ?_, ?_, ?_, ?_, nofun⟩ <;>
  · rintro v record _ hname ⟨_, -, rfl⟩
    exact hname

/-- The scenarios of a store have distinct names. -/
theorem nodup_names_of_loadAll {files : Files} {folder : String} {scenarios : List Scenario}
    (h : loadAll files folder = .ok scenarios) : (scenarios.map Scenario.name).Nodup := by
  simp only [loadAll, bind_ok_iff, pure_ok_iff, Files.readDocument, Attempt.within, mapError_ok_iff,
    Attempt.ofDocument] at h
  obtain ⟨_, ⟨text, -, h⟩, -, -, rfl⟩ := h
  rw [Toml.readText] at h
  split at h
  · next t ht =>
    have hnames := map_eq_map_of_forall₂ (f := Prod.fst) (g := Scenario.name) (mapM_ok_iff.1 h)
      fun entry s hs => (name_eq_of_decoder hs).symm
    rw [← hnames]
    exact (Toml.keyed_of_ofText? ht).nodup
  · cases h

end Scenario

/-! ## Commands on stores -/

namespace Session

variable {settings : Settings} {folder name : String} {world after : World}
  {requirements : Requirements} {store : Store} {scenarios : List Scenario} {s : Scenario}

/-- The log can be started, and the requirements, the store and the scenarios can be loaded. -/
structure Provided (settings : Settings) (folder : String) (world : World)
    (requirements : Requirements) (store : Store) (scenarios : List Scenario) : Prop where
  canLog : CanLog settings.logLevel world
  requirements : Requirements.load world.files settings.requirementsFile = .ok requirements
  store : Store.load world.files folder = .ok store
  scenarios : Scenario.loadAll world.files folder = .ok scenarios

/-- Who changes nothing but the log leaves everything in place. -/
theorem Provided.keeps (h : Provided settings folder world requirements store scenarios)
    (hkeeps : world.Keeps after) : Provided settings folder after requirements store scenarios where
  canLog := h.canLog.imp hkeeps.isStarted fun hlevel => by rwa [hkeeps.environment]
  requirements := by rw [hkeeps.files, h.requirements]
  store := by rw [hkeeps.files, h.store]
  scenarios := by rw [hkeeps.files, h.scenarios]

/-- The store and the scenarios in a folder, if they can be loaded. -/
def loaded (folder : String) (files : Files) : Attempt (Store × List Scenario) := do
  let store ← Attempt.within "Failed to load store." (Store.load files folder)
  let scenarios ← Attempt.within "Failed to load scenarios." (Scenario.loadAll files folder)
  return (store, scenarios)

theorem loaded_ok_iff {files : Files} : loaded folder files = .ok (store, scenarios) ↔
    Store.load files folder = .ok store ∧ Scenario.loadAll files folder = .ok scenarios := by
  simp only [loaded, Attempt.within, bind_ok_iff, mapError_ok_iff, pure_ok_iff]
  constructor
  · rintro ⟨_, hstore, _, hscenarios, e⟩
    cases e
    exact ⟨hstore, hscenarios⟩
  · rintro ⟨hstore, hscenarios⟩
    exact ⟨store, hstore, scenarios, hscenarios, rfl⟩

theorem Provided.loaded_eq (h : Provided settings folder world requirements store scenarios) :
    loaded folder world.files = .ok (store, scenarios) := loaded_ok_iff.2 ⟨h.store, h.scenarios⟩

/-- The scenario with a name, if there is one. -/
def found (scenarios : List Scenario) (name : String) : Attempt Scenario :=
  match scenarios.find? (·.name == name) with
  | some s => .ok s
  | none => .error (.stated s!"Scenario {name} not found in store")

theorem found_ok_iff : found scenarios name = .ok s ↔ scenarios.find? (·.name == name) = some s := by
  rw [found]
  split <;> simp [*]

/-! ## What validation says -/

/-- What is said of some scenarios of which some cannot be assembled. -/
def verdict (failed total : Nat) : Except Failure Unit :=
  if failed = 0 then .ok ()
  else .error (.stated s!"{failed} of {total} scenarios failed validation")

/-- How many scenarios cannot be assembled. -/
def failures (store : Store) (requirements : Requirements) (scenarios : List Scenario) : Nat :=
  scenarios.countP fun s => !(assemble store s requirements).outcome.isOk

theorem isOk_verdict {failed total : Nat} : (verdict failed total).isOk = true ↔ failed = 0 := by
  rw [verdict]
  split
  · next h => exact ⟨fun _ => h, fun _ => rfl⟩
  · next h => exact ⟨nofun, fun e => absurd e h⟩

example : verdict 1 2 = .error (.stated "1 of 2 scenarios failed validation") := by decide

theorem failures_singleton : failures store requirements [s] = 0 ↔
    (assemble store s requirements).outcome.isOk = true := by
  rw [failures, List.countP_eq_zero, List.forall_mem_singleton, Bool.not_eq_true',
    Bool.not_eq_false]

namespace Gives

theorem loadRequirements
    (h : Requirements.load world.files settings.requirementsFile = .ok requirements) :
    Gives (loadRequirements settings) world (.ok requirements) :=
  (look_eq h).within_ok _

/-- What is loaded, in terms of what can be loaded. -/
theorem loadAll (folder : String) (world : World) :
    Gives (Session.loadAll folder) world (loaded folder world.files) := by
  have hstore : Gives (loadStore folder) world
      (Attempt.within "Failed to load store." (Store.load world.files folder) >>= Pure.pure) :=
    ((look _ world).within _).bind_result fun store after _ =>
      (record _ _ after).bind fun after _ => pure store after
  rw [bind_pure] at hstore
  refine hstore.bind_result fun store after hkeeps => ?_
  rw [← hkeeps.files]
  exact ((look _ after).within _).bind_result fun scenarios after _ =>
    (record _ _ after).bind fun after _ => pure _ after

theorem loadAll_of_provided (h : Provided settings folder world requirements store scenarios) :
    Gives (Session.loadAll folder) world (.ok (store, scenarios)) :=
  h.loaded_eq ▸ loadAll folder world

theorem findScenario (scenarios : List Scenario) (name : String) (world : World) :
    Gives (findScenario scenarios name) world (found scenarios name) := by
  rw [Session.findScenario, found]
  rcases h : scenarios.find? (·.name == name) with _ | s
  · rw [h]
    exact throw _ world
  · rw [h]
    exact pure s world

theorem findScenario_of_find? (h : scenarios.find? (·.name == name) = some s) (world : World) :
    Gives (Session.findScenario scenarios name) world (.ok s) :=
  found_ok_iff.2 h ▸ findScenario scenarios name world

/-- To assemble a scenario is to log something. -/
theorem assembleLogged (store : Store) (s : Scenario) (requirements : Requirements)
    (world : World) : Gives (assembleLogged store s requirements) world
      (.ok (assemble store s requirements).outcome) := by
  refine (forM (fun _ => record _ _) _ world).bind fun after _ => ?_
  rcases (assemble store s requirements).outcome with error | resolved
  · exact pure _ after
  · exact (record _ _ after).bind fun after _ =>
      (forM (fun _ => record _ _) _ after).bind fun after _ => pure _ after

theorem validateOne (store : Store) (requirements : Requirements) (s : Scenario) (world : World) :
    Gives (validateOne store requirements s) world
      (.ok !(assemble store s requirements).outcome.isOk) := by
  refine (assembleLogged store s requirements world).bind fun after _ => ?_
  rcases (assemble store s requirements).outcome with error | resolved
  · exact (record _ _ after).bind fun after _ => pure _ after
  · exact (record _ _ after).bind fun after _ => pure _ after

/-- The scenarios which cannot be assembled are counted, whatever else there is. -/
theorem tally (store : Store) (requirements : Requirements) (scenarios : List Scenario)
    (world : World) : Gives (do
      let failed := ((← scenarios.mapM (Session.validateOne store requirements)).filter id).length
      if 0 < failed then
        MonadExcept.throw (.stated s!"{failed} of {scenarios.length} scenarios failed validation")
      Session.record .info "Validation successful!") world
      (verdict (failures store requirements scenarios) scenarios.length) := by
  refine (mapM (validateOne store requirements) scenarios world).bind fun after _ => ?_
  have hcount : ((scenarios.map fun s => !(assemble store s requirements).outcome.isOk).filter
      id).length = failures store requirements scenarios := by
    rw [← List.countP_eq_length_filter, List.countP_map, failures]
    rfl
  rw [hcount, verdict]
  by_cases hfailed : failures store requirements scenarios = 0
  · rw [if_pos hfailed, if_neg (by omega)]
    exact record _ _ after
  · rw [if_neg hfailed, if_pos (by omega)]
    exact (throw _ after).bind_error

/-- What comes after the log is started and all is loaded has what can be loaded. -/
theorem once_loaded {next : Requirements → Store × List Scenario → Session Unit}
    {result : Except Failure Unit}
    (h : Provided settings folder world requirements store scenarios)
    (h' : ∀ after, Gives (next requirements (store, scenarios)) after result) :
    Gives (do
      Session.within "Failed to initialise logging." (Session.startLog settings.logLevel none)
      let requirements ← Session.loadRequirements settings
      let loaded ← Session.loadAll folder
      next requirements loaded) world result := by
  refine ((startLog h.canLog).within_ok _).bind fun after hkeeps => ?_
  have h := h.keeps hkeeps
  refine (loadRequirements h.requirements).bind fun after hkeeps => ?_
  have h := h.keeps hkeeps
  exact (loadAll_of_provided h).bind fun after _ => h' after

/-- The validation of all scenarios counts all of them. -/
theorem validate_all (h : Provided settings folder world requirements store scenarios) :
    Gives (validate settings folder none) world
      (verdict (failures store requirements scenarios) scenarios.length) := by
  refine once_loaded h fun after => ?_
  exact (pure scenarios after).bind fun after _ => tally store requirements scenarios after

/-- The validation of one scenario counts this one. -/
theorem validate_one (h : Provided settings folder world requirements store scenarios)
    (hs : scenarios.find? (·.name == name) = some s) :
    Gives (validate settings folder (some name)) world
      (verdict (failures store requirements [s]) 1) := by
  refine once_loaded h fun after => (findScenario_of_find? hs after).bind fun after _ => ?_
  exact (pure [s] after).bind fun after _ => tally store requirements [s] after

end Gives

end Session

end CapacityExpansion
