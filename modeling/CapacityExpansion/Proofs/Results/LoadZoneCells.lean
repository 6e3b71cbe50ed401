import CapacityExpansion.Proofs.Assembly.Scoping
import CapacityExpansion.Proofs.Results.Records
import CapacityExpansion.Proofs.Store.Parts

/-!
# Load zones in a cell

The table of projects has a row for every project, and the load zones of a project
are in one cell of it, with semicolons between them. To cut the cell at its
semicolons gives the names of the zones, unless there is a semicolon in one of them:
such a name is cut as well, and the project cannot be told from one which has the
parts of the name as load zones. The rows of a store may name its zones like this. But
none of them is without a name, so that only a project without load zones has an empty
cell.

* `namesOfCell`, `namesOfCell_zonesCell`: what is between the semicolons of a cell;
* `zonesCell_eq_iff`: projects with the same cell;
* `loadZones_of_cells`: the cells of assembled scenarios;
* `exists_same_cell`: two projects which cannot be told apart by their cells.
-/

namespace CapacityExpansion.Results

open Assembly

/-! ## Names between semicolons -/

/-- The cell with the load zones of a project. -/
def zonesCell (p : ScopedProject) : String := ";".intercalate p.loadZones

/-- The names in a cell: none if it is empty, and otherwise what is between its semicolons. -/
def namesOfCell (cell : String) : List String := if cell = "" then [] else Text.split ';' cell

variable {zones zones' : List EntityName} {p p' : ScopedProject}

/-- To cut at the semicolons cuts between the names, and within those which have semicolons. -/
theorem split_intercalate (zone : EntityName) (zones : List EntityName) :
    Text.split ';' (";".intercalate (zone :: zones)) =
      (zone :: zones).flatMap (Text.split ';') := by
  induction zones generalizing zone with
  | nil => rw [String.intercalate_singleton, List.flatMap_singleton]
  | cons next zones ih =>
    rw [String.intercalate_cons_cons, List.flatMap_cons, ← ih, Text.split, String.toList_append,
      String.toList_append, List.append_assoc]
    exact (congrArg _ (Text.splitChars_append_cons ';' zone.toList _)).trans List.map_append

theorem intercalate_eq_empty_iff (hnamed : "" ∉ zones) :
    ";".intercalate zones = "" ↔ zones = [] := by
  refine ⟨fun h => ?_, fun h => by rw [h, String.intercalate_nil]⟩
  rcases zones with _ | ⟨zone, _ | ⟨next, zones⟩⟩
  · rfl
  · rw [String.intercalate_singleton] at h
    exact absurd (h ▸ List.mem_cons_self) hnamed
  · rw [String.intercalate_cons_cons] at h
    simp at h

/-- What is between the semicolons of a cell are the names of the load zones, cut at their own
    semicolons. -/
theorem namesOfCell_zonesCell (hnamed : "" ∉ p.loadZones) :
    namesOfCell (zonesCell p) = p.loadZones.flatMap (Text.split ';') := by
  rw [namesOfCell, zonesCell]
  rcases hzones : p.loadZones with _ | ⟨zone, zones⟩
  · rfl
  · rw [if_neg, split_intercalate]
    rw [intercalate_eq_empty_iff (hzones ▸ hnamed)]
    exact List.cons_ne_nil _ _

theorem flatMap_split_eq_self (h : ∀ zone ∈ zones, ';' ∉ zone.toList) :
    zones.flatMap (Text.split ';') = zones := by
  have hsplit : ∀ zone ∈ zones, Text.split ';' zone = [zone] := fun zone hzone => by
    rw [Text.split, Text.splitChars_of_notMem ';' (h zone hzone), List.map_singleton,
      String.ofList_toList]
  rw [List.flatMap_congr hsplit, List.flatMap_singleton']

/-- A cell is determined by the names between its semicolons. -/
theorem namesOfCell_injective : Function.Injective namesOfCell := by
  have hsplit (cell : String) : Text.split ';' cell ≠ [] := fun h =>
    Text.splitChars_ne_nil ';' cell.toList (List.map_eq_nil_iff.1 h)
  intro cell cell' h
  rw [namesOfCell, namesOfCell] at h
  split at h <;> split at h
  · next hcell hcell' => rw [hcell, hcell']
  · exact absurd h.symm (hsplit cell')
  · exact absurd h (hsplit cell)
  · have hchars := List.map_injective_iff.2 (fun _ _ e => String.ofList_injective e) h
    rw [← String.toList_inj, ← Text.joinChars_splitChars ';' cell.toList, hchars,
      Text.joinChars_splitChars]

/-- Two projects have the same cell if and only if the names of their load zones, cut at their
    semicolons, are the same. -/
theorem zonesCell_eq_iff (hnamed : "" ∉ p.loadZones) (hnamed' : "" ∉ p'.loadZones) :
    zonesCell p = zonesCell p' ↔
      p.loadZones.flatMap (Text.split ';') = p'.loadZones.flatMap (Text.split ';') := by
  rw [← namesOfCell_injective.eq_iff, namesOfCell_zonesCell hnamed, namesOfCell_zonesCell hnamed']

/-! ## Assembled scenarios -/

section Assembled

variable {files files' : Files} {folder folder' : String} {store store' : Store} {s s' : Scenario}
  {r r' : Requirements} {scenario scenario' : ResolvedScenario}

/-- All load zones of a project have names. -/
theorem empty_notMem_loadZones (hload : Store.load files folder = .ok store)
    (hok : (assemble store s r).outcome = .ok scenario) (hp : p ∈ scenario.projects) :
    "" ∉ p.loadZones := by
  obtain ⟨h, warnings, rfl⟩ := exists_resolved_of_ok hok
  obtain ⟨project, -, rfl⟩ := List.mem_map.1 hp
  intro hzone
  obtain ⟨id, zones, -, hzones, hzone⟩ := mem_loadZonesOf_iff.1 hzone
  have hrows : ∀ row ∈ (Integrity.zoneMap store ⟨.projectLoadZones, id⟩).entries,
      row.1 ≠ "" ∧ row.2.elements ≠ [] ∧ "" ∉ row.2.elements :=
    OrderedMap.forall_getD (P := fun rows : ZoneMap => ∀ row ∈ rows.entries,
        row.1 ≠ "" ∧ row.2.elements ≠ [] ∧ "" ∉ row.2.elements)
      (fun fragment hfragment => ((Store.orderly_of_load hload).zones fragment hfragment).2)
      OrderedMap.forall_entries_empty ⟨.projectLoadZones, id⟩
  exact (hrows (project, zones) (OrderedMap.mem_entries_iff.2 hzones)).2.2 hzone

/-- What is written of the projects of an assembled scenario is a row for each of them, in their
    order, which is that of the portfolio. The cell with the load zones of a project is empty if
    and only if it has none, and what is between the semicolons of the cell are the names of the
    load zones, cut at their own semicolons: if there are no such semicolons, these are the load
    zones. So two projects, be they of one scenario or of two, have the same cell if and only if
    their load zones are the same once their names are cut at semicolons, and no two projects with
    different load zones have the same cell if there is no semicolon in the names of these. -/
theorem loadZones_of_cells (hload : Store.load files folder = .ok store)
    (hload' : Store.load files' folder' = .ok store')
    (hok : (assemble store s r).outcome = .ok scenario)
    (hok' : (assemble store' s' r').outcome = .ok scenario') :
    recordsOf (projectFormat.text scenario.projects) = (if scenario.projects = [] then [] else
      ["project", "load_zones", "operational_type"] :: scenario.projects.map fun p =>
        [p.project, zonesCell p, orBlank OperationalChars.operationalType p.chars]) ∧
    scenario.projects.map ScopedProject.project = selectedEntities store s .projectPortfolio ∧
    (scenario.projects.map ScopedProject.project).Nodup ∧
    (∀ p ∈ scenario.projects, (zonesCell p = "" ↔ p.loadZones = []) ∧
      namesOfCell (zonesCell p) = p.loadZones.flatMap (Text.split ';') ∧
      ((∀ zone ∈ p.loadZones, ';' ∉ zone.toList) → namesOfCell (zonesCell p) = p.loadZones)) ∧
    ∀ p ∈ scenario.projects, ∀ p' ∈ scenario'.projects,
      (zonesCell p = zonesCell p' ↔
        p.loadZones.flatMap (Text.split ';') = p'.loadZones.flatMap (Text.split ';')) ∧
      ((∀ zone ∈ p.loadZones ++ p'.loadZones, ';' ∉ zone.toList) →
        (zonesCell p = zonesCell p' ↔ p.loadZones = p'.loadZones)) := by
  have hprojects : scenario.projects.map ScopedProject.project =
      selectedEntities store s .projectPortfolio := by
    obtain ⟨h, warnings, rfl⟩ := exists_resolved_of_ok hok
    exact (List.map_map ..).trans (List.map_id _)
  refine ⟨records_text (List.cons_ne_nil _ _) scenario.projects, hprojects, ?_, fun p hp => ?_,
    fun p hp p' hp' => ?_⟩
  · rw [hprojects, selectedEntities_eq]
    cases s.selected .projectPortfolio with
    | none => exact List.nodup_nil
    | some id => exact (store.entities ⟨.projectPortfolio, id⟩).nodup
  · have hcell := namesOfCell_zonesCell (empty_notMem_loadZones hload hok hp)
    exact ⟨intercalate_eq_empty_iff (empty_notMem_loadZones hload hok hp), hcell,
      fun h => hcell.trans (flatMap_split_eq_self h)⟩
  · have hiff := zonesCell_eq_iff (empty_notMem_loadZones hload hok hp)
      (empty_notMem_loadZones hload' hok' hp')
    refine ⟨hiff, fun h => ?_⟩
    rw [List.forall_mem_append] at h
    rwa [flatMap_split_eq_self h.1, flatMap_split_eq_self h.2] at hiff

end Assembled

/-- Of the two projects of a store, the second one can be told by its cell; that of the first one
    gives the parts of a name. -/
theorem loadZones_of_cells_zonedFiles : ∃ s scenario,
    Store.load Store.zonedFiles "store" = .ok Store.zonedStore ∧
    (assemble Store.zonedStore s .bundled).outcome = .ok scenario ∧
    scenario.projects.map (fun p => (p.loadZones, namesOfCell (zonesCell p))) =
      [(["north;south"], ["north", "south"]), (["north", "south"], ["north", "south"])] ∧
    (recordsOf (projectFormat.text scenario.projects)).length = 3 := by
  obtain ⟨s, nothing, scenario, -, -, -, hok, hprojects, -⟩ := Store.exists_scenarios_zonedFiles
  obtain ⟨hrecords, -, -, hcells, -⟩ :=
    loadZones_of_cells Store.load_zonedFiles Store.load_zonedFiles hok hok
  obtain ⟨wind, rest, he, hwind, hrest⟩ := List.map_eq_cons_iff.1 hprojects
  obtain ⟨gas, rest, rfl, hgas, hrest⟩ := List.map_eq_cons_iff.1 hrest
  obtain rfl := List.map_eq_nil_iff.1 hrest
  rw [he, List.forall_mem_cons, List.forall_mem_singleton] at hcells
  refine ⟨s, scenario, Store.load_zonedFiles, hok, ?_, ?_⟩
  · rw [he, List.map_cons, List.map_singleton, hcells.1.2.1, hcells.2.2.2, (Prod.mk.inj hwind).2,
      (Prod.mk.inj hgas).2]
    · decide
    · rw [(Prod.mk.inj hgas).2]
      decide
  · rw [hrecords, he]
    rfl

/-- Two projects of an assembled scenario can have the same cell although they have different load
    zones. -/
theorem exists_same_cell : ∃ store s scenario,
    Store.load Store.zonedFiles "store" = .ok store ∧
    (assemble store s .bundled).outcome = .ok scenario ∧
    ∃ p ∈ scenario.projects, ∃ p' ∈ scenario.projects, p.loadZones ≠ p'.loadZones ∧
      zonesCell p = zonesCell p' ∧ namesOfCell (zonesCell p) ≠ p.loadZones := by
  obtain ⟨s, nothing, scenario, -, -, -, hok, hprojects, -⟩ := Store.exists_scenarios_zonedFiles
  obtain ⟨wind, rest, he, hwind, hrest⟩ := List.map_eq_cons_iff.1 hprojects
  obtain ⟨gas, rest, rfl, hgas, -⟩ := List.map_eq_cons_iff.1 hrest
  refine ⟨Store.zonedStore, s, scenario, Store.load_zonedFiles, hok, wind, by simp [he], gas,
    by simp [he], ?_⟩
  rw [zonesCell, zonesCell, (Prod.mk.inj hwind).2, (Prod.mk.inj hgas).2]
  decide

end CapacityExpansion.Results
