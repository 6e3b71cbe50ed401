import CapacityExpansion.Proofs.Assembly.Phases
import CapacityExpansion.Proofs.Store.Loading

/-!
# What a scenario is given of its projects

An assembled scenario holds the projects of its portfolio, each with what the
selected fragments say about it: its load zones, its operational characteristics
and the part of its heat rate curve which is for periods of the scenario. The
first phase has looked at these fragments as a whole. Since a scenario is only
assembled if nothing was found, what is looked up for a single project fits to
the other fragments as well: no project is in a load zone which the scenario does
not have, and none names a project fragment which does not exist.

* `charsOf_eq_some_iff`, `mem_loadZonesOf_iff`: what is looked up is what the
  first phase has looked at;
* `not_holds_of_ok`: nothing is found about an assembled scenario;
* `Scoped`, `assemble_scoped`: the projects of an assembled scenario.
-/

namespace CapacityExpansion

namespace Assembly

open Integrity (CrossReference Finding Registered crossReferences operationalRows zoneMap)

variable (store : Store) (s : Scenario)

/-- What a scenario is given of a project is what the selected fragments say, and refers to nothing
    which is not there. -/
structure Scoped (scenario : ResolvedScenario) (p : ScopedProject) : Prop where
  chars_iff : ∀ chars, p.chars = some chars ↔ ∃ id, s.selected .projectOperationalChars = some id ∧
    (operationalRows store ⟨.projectOperationalChars, id⟩).get? p.project = some chars
  mem_loadZones_iff : ∀ zone, zone ∈ p.loadZones ↔
    ∃ id zones, s.selected .projectLoadZones = some id ∧
      (zoneMap store ⟨.projectLoadZones, id⟩).get? p.project = some zones ∧ zone ∈ zones
  /-- Load zones are those of the scenario, if it selects any. -/
  loadZones_within : (s.selected .loadZones).isSome → ∀ zone ∈ p.loadZones, zone ∈ scenario.loadZones
  /-- The project has the project fragments which it names. -/
  registered : ∀ chars ∈ p.chars, ∀ category, ∀ id ∈ chars.subFragment category,
    (store.projectFragment? category p.project id).isSome
  /-- The heat rate curve is the one named, if one is, for the periods of the scenario. -/
  heatRateCurve_eq : p.heatRateCurve =
    (p.chars.bind OperationalChars.heatRateCurve).elim [] fun id =>
      (store.heatRateCurve p.project id).filter fun point =>
        point.period ∈ scenario.temporal.periods.map Temporal.Period.id

variable {store s} {r : Requirements} {scenario : ResolvedScenario} {project zone : EntityName}

/-! ## What is looked up -/

theorem selectedEntities_eq (category : Category) : selectedEntities store s category =
    (s.selected category).elim [] fun id => (store.entities ⟨category, id⟩).elements := by
  rw [selectedEntities, Scenario.selector?]
  cases s.selected category <;> rfl

theorem charsOf_eq (project : EntityName) : charsOf store s project =
    (s.selected .projectOperationalChars).bind fun id =>
      (operationalRows store ⟨.projectOperationalChars, id⟩).get? project := by
  rw [charsOf]
  cases s.selected .projectOperationalChars with
  | none => rfl
  | some id =>
    simp only [operationalRows, Option.bind_some, Option.bind_eq_bind]
    cases store.operationalChars.get? id <;> rfl

theorem loadZonesOf_eq (project : EntityName) : loadZonesOf store s project =
    (((s.selected .projectLoadZones).bind fun id =>
      (zoneMap store ⟨.projectLoadZones, id⟩).get? project).map OrderedSet.elements).getD [] := by
  rw [loadZonesOf, Scenario.selector?]
  cases s.selected .projectLoadZones with
  | none => rfl
  | some id =>
    simp only [zoneMap, Option.map_some, Option.bind_some, Option.bind_eq_bind]
    cases store.zones.get? ⟨.projectLoadZones, id⟩ <;> rfl

/-- The operational characteristics of a project are a row of the selected fragment. -/
theorem charsOf_eq_some_iff {chars : OperationalChars} : charsOf store s project = some chars ↔
    ∃ id, s.selected .projectOperationalChars = some id ∧
      (operationalRows store ⟨.projectOperationalChars, id⟩).get? project = some chars := by
  rw [charsOf_eq, Option.bind_eq_some_iff]

/-- The load zones of a project are those of its row of the selected fragment. -/
theorem mem_loadZonesOf_iff : zone ∈ loadZonesOf store s project ↔
    ∃ id zones, s.selected .projectLoadZones = some id ∧
      (zoneMap store ⟨.projectLoadZones, id⟩).get? project = some zones ∧ zone ∈ zones := by
  rw [loadZonesOf_eq]
  cases s.selected .projectLoadZones with
  | none => simp
  | some id =>
    rw [Option.bind_some]
    cases hrow : (zoneMap store ⟨.projectLoadZones, id⟩).get? project <;>
      simp [hrow, OrderedSet.mem_elements]

/-- The heat rate curve of a project has the points of the curve named which are for periods of the
    hierarchy. -/
theorem curveOf_eq {h : Temporal.Hierarchy} (chars : Option OperationalChars) :
    curveOf store h project chars =
      (chars.bind OperationalChars.heatRateCurve).elim [] fun id =>
        (store.heatRateCurve project id).filter fun point =>
          point.period ∈ h.periods.map Temporal.Period.id := by
  unfold curveOf
  cases chars.bind OperationalChars.heatRateCurve with
  | none => rfl
  | some id =>
    refine List.filter_congr fun point _ => Bool.eq_iff_iff.2 ?_
    simp only [List.any_eq_true, beq_iff_eq, List.mem_map, decide_eq_true_eq]

/-- Operational characteristics looked up under a project are about it. -/
theorem project_eq_of_get? (hkeyed : store.KeyedByProject) {fragment : Selector}
    {chars : OperationalChars} (hrow : (operationalRows store fragment).get? project = some chars) :
    chars.project = project := by
  have hrows : CharsKeyed (operationalRows store fragment) :=
    OrderedMap.forall_getD hkeyed OrderedMap.forall_entries_empty _
  exact hrows (project, chars) (OrderedMap.mem_entries_iff.2 hrow)

/-! ## What is found -/

/-- Nothing is found about a scenario which is assembled. -/
theorem not_holds_of_ok (hok : (assemble store s r).outcome = .ok scenario) (finding : Finding) :
    ¬finding.Holds store s := by
  intro hholds
  obtain ⟨hR, -⟩ := exists_ready_of_ok hok
  rw [report, Report.hasErrors_append, Bool.or_eq_false_iff] at hR
  have hmem : finding.violation ∈ (Integrity.validate store s).violations := by
    rw [Integrity.violations_validate]
    exact List.mem_map_of_mem (Integrity.mem_findings.2 hholds)
  exact List.any_eq_false.1 hR.1 _ hmem rfl

/-- An assembled scenario is made of a hierarchy and a report. -/
theorem exists_resolved_of_ok (hok : (assemble store s r).outcome = .ok scenario) :
    ∃ h warnings, resolved store s h warnings = scenario := by
  obtain ⟨-, h, -, e⟩ := exists_ready_of_ok hok
  exact ⟨h, _, e⟩

section NothingFound

variable (hnone : ∀ finding : Finding, ¬finding.Holds store s)
include hnone

/-- Selected fragments are registered. -/
theorem registered_of_selected {category : Category} {id : Nat}
    (hid : s.selected category = some id) : Registered store s ⟨category, id⟩ := by
  refine ⟨hid, Option.isSome_iff_ne_none.2 fun hfragment => ?_⟩
  exact hnone (.dangling ⟨category, id⟩) ⟨hid, hfragment⟩

/-- The project fragments which are named exist, for the projects under which they are named. -/
theorem isSome_projectFragment? (hkeyed : store.KeyedByProject) {chars : OperationalChars}
    (hchars : charsOf store s project = some chars) {category : ProjectCategory} {id : Nat}
    (hid : chars.subFragment category = some id) :
    (store.projectFragment? category project id).isSome := by
  obtain ⟨fragment, hfragment, hrow⟩ := charsOf_eq_some_iff.1 hchars
  have href : (⟨.projectOperationalChars, .subFragment category⟩ : CrossReference) ∈
      crossReferences := by
    cases category <;> decide
  refine Option.isSome_iff_ne_none.2 fun hmissing => ?_
  -- The first phase searches for it under the project which the row is about; it is this one.
  exact hnone (.offends ⟨.projectOperationalChars, fragment⟩
    (.missingFragment category project project id)) ⟨href, registered_of_selected hnone hfragment,
      fun other h => absurd h (Option.not_mem_none other), chars, hrow,
      project_eq_of_get? hkeyed hrow, hid, hmissing⟩

/-- The load zones of projects are those of the scenario. -/
theorem mem_loadZones_of_mem_loadZonesOf {id : Nat} (hid : s.selected .loadZones = some id)
    (hzone : zone ∈ loadZonesOf store s project) : zone ∈ store.entities ⟨.loadZones, id⟩ := by
  obtain ⟨fragment, zones, hfragment, hrow, hzone⟩ := mem_loadZonesOf_iff.1 hzone
  have href : (⟨.projectLoadZones, .zonesWithin .loadZones⟩ : CrossReference) ∈
      crossReferences := by decide
  by_contra hout
  refine hnone (.offends ⟨.projectLoadZones, fragment⟩ (.outsideZone ⟨.loadZones, id⟩ project zone))
    ⟨href, registered_of_selected hnone hfragment, fun other h => ?_, zones, hrow, hzone, hout⟩
  cases h
  exact registered_of_selected hnone hid

end NothingFound

/-! ## The projects -/

/-- What the assembly describes a project with is closed if nothing is found. -/
theorem scoped_describe (hkeyed : store.KeyedByProject)
    (hnone : ∀ finding : Finding, ¬finding.Holds store s) (h : Temporal.Hierarchy)
    (warnings : Report) (project : EntityName) :
    Scoped store s (resolved store s h warnings) (describe store s h project) where
  chars_iff _ := charsOf_eq_some_iff
  mem_loadZones_iff _ := mem_loadZonesOf_iff
  loadZones_within hsome zone hzone := by
    obtain ⟨id, hid⟩ := Option.isSome_iff_exists.1 hsome
    change zone ∈ selectedEntities store s .loadZones
    rw [selectedEntities_eq, hid]
    exact mem_loadZones_of_mem_loadZonesOf hnone hid hzone
  registered _ hchars _ _ hid := isSome_projectFragment? hnone hkeyed hchars hid
  heatRateCurve_eq := curveOf_eq _

/-- The projects of an assembled scenario are those of the selected portfolio, in its order; there
    are none if no portfolio is selected. What is given of each of them refers to nothing which is
    not there. -/
theorem assemble_scoped (hkeyed : store.KeyedByProject)
    (hok : (assemble store s r).outcome = .ok scenario) :
    scenario.projects.map ScopedProject.project = ((s.selected .projectPortfolio).elim [] fun id =>
      (store.entities ⟨.projectPortfolio, id⟩).elements) ∧
    (scenario.projects.map ScopedProject.project).Nodup ∧
    ∀ p ∈ scenario.projects, Scoped store s scenario p := by
  have hnone := not_holds_of_ok hok
  obtain ⟨h, warnings, rfl⟩ := exists_resolved_of_ok hok
  have hprojects : ((resolved store s h warnings).projects.map ScopedProject.project) =
      selectedEntities store s .projectPortfolio := by
    change ((selectedEntities store s .projectPortfolio).map (describe store s h)).map _ = _
    rw [List.map_map]
    exact List.map_id _
  rw [hprojects]
  refine ⟨selectedEntities_eq _, ?_, fun p hp => ?_⟩
  · rw [selectedEntities_eq]
    cases s.selected .projectPortfolio with
    | none => exact List.nodup_nil
    | some id => exact (store.entities _).nodup
  · obtain ⟨project, -, rfl⟩ := List.mem_map.1 hp
    exact scoped_describe hkeyed hnone h warnings project

/-- A store with two projects in a load zone. One of them has a heat rate curve, with a point which
    is not for a period of the temporal tables. -/
def zoneStore : Store :=
  let registered (store : Store) (category : Category) : Store :=
    store.insertFragment category ⟨1, "base", ""⟩
  { [.temporal, .loadZones, .projectPortfolio, .projectOperationalChars, .projectLoadZones].foldl
      registered Store.empty with
    members := .ofList [(⟨.loadZones, 1⟩, .ofList ["north"]),
      (⟨.projectPortfolio, 1⟩, .ofList ["wind", "gas_ct"])]
    zones := .ofList [(⟨.projectLoadZones, 1⟩,
      .ofList [("gas_ct", .ofList ["north"]), ("wind", .ofList ["north"])])]
    operationalChars := .ofList [(1, .ofList [
      ("gas_ct", { project := "gas_ct", operationalType := "gen_commit_bin", heatRateCurve := some 2 }),
      ("wind", { project := "wind", operationalType := "gen_var" })])]
    projectFragments := .ofList [(.heatRateCurves, .ofList [(("gas_ct", 2), ⟨2, "curve", ""⟩)])]
    heatRateCurves := .ofList [(("gas_ct", 2), [⟨2030, 1.0, 8.0⟩, ⟨2040, 1.0, 7.5⟩])]
    temporal := .ofList [(1, Temporal.twoDays)] }

/-- A scenario of all of these fragments. -/
def zoneScenario : Scenario where
  name := "zones"
  selected
    | .temporal | .loadZones | .projectPortfolio | .projectOperationalChars => some 1
    | .projectLoadZones => some 1
    | _ => none

/-- The two projects are described in the order of the portfolio, both with their load zone, the
    second one with the part of its curve which is for the period of the temporal tables. -/
theorem assemble_scoped_zones : ∃ scenario,
    (assemble zoneStore zoneScenario temporalOnly).outcome = .ok scenario ∧
      scenario.projects.map ScopedProject.project = ["wind", "gas_ct"] ∧
      scenario.projects.map ScopedProject.loadZones = [["north"], ["north"]] ∧
      scenario.projects.map (·.heatRateCurve.map HeatRatePoint.period) = [[], [2030]] ∧
      ∀ p ∈ scenario.projects, Scoped zoneStore zoneScenario scenario p := by
  have hkeyed : zoneStore.KeyedByProject := by
    unfold Store.KeyedByProject CharsKeyed
    decide
  have hgiven : ((assemble zoneStore zoneScenario temporalOnly).outcome.map fun scenario =>
      (scenario.projects.map ScopedProject.loadZones,
        scenario.projects.map (·.heatRateCurve.map HeatRatePoint.period))) =
      .ok ([["north"], ["north"]], [[], [2030]]) := by decide +kernel
  have hisOk : (assemble zoneStore zoneScenario temporalOnly).outcome.isOk := by decide +kernel
  obtain ⟨scenario, hok⟩ := exists_of_isOk hisOk
  obtain ⟨hprojects, -, hscoped⟩ := assemble_scoped hkeyed hok
  rw [hok] at hgiven
  obtain ⟨hzones, hcurves⟩ := Prod.mk.inj (Except.ok.inj hgiven)
  exact ⟨scenario, hok, hprojects.trans (by decide), hzones, hcurves, hscoped⟩

end Assembly

end CapacityExpansion
