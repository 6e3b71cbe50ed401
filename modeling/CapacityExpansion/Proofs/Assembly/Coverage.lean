import CapacityExpansion.Proofs.Assembly.Scoping

/-!
# What is known of each project

The projects of the portfolio must have entries in the operational
characteristics and in the load zones which are selected beside it. An entry is
anything that names the project, and this is where the first phase and the
assembly differ: the assembly takes the characteristics from the rows for them,
and the load zones from the rows with zones. A project which a fragment has as a
mere member passes, and is assembled without characteristics or without load
zones. Nothing else can be amiss.

* `mem_entities_of_covers`: nothing found means that projects have entries;
* `assemble_covered`: projects are described and located unless they are merely
  listed;
* `exists_assembled_uncovered`: a project which is merely listed.
-/

namespace CapacityExpansion

namespace Assembly

open Integrity

variable {store : Store} {s : Scenario} {r : Requirements} {scenario : ResolvedScenario}
  {entity : EntityName}

/-- If nothing is found, a fragment which must cover another one has all entities of it. -/
theorem mem_entities_of_covers (hnone : ∀ finding : Finding, ¬finding.Holds store s)
    {category other : Category} {id : Nat} (hid : s.selected category = some id)
    (href : ⟨category, .coversEntities other⟩ ∈ crossReferences)
    (hentity : entity ∈ selectedEntities store s other) : entity ∈ store.entities ⟨category, id⟩ := by
  rw [selectedEntities_eq] at hentity
  cases hother : s.selected other with
  | none =>
    rw [hother] at hentity
    exact absurd hentity List.not_mem_nil
  | some otherId =>
    rw [hother] at hentity
    have hregistered := registered_of_selected hnone hother
    by_contra hout
    refine hnone (.offends ⟨category, id⟩ (.uncovered ⟨other, otherId⟩ entity))
      ⟨href, registered_of_selected hnone hid, fun _ h => ?_, hentity, hout⟩
    cases h
    exact hregistered

/-- A project with a row in the selected characteristics is described. -/
theorem isSome_charsOf {id : Nat} (hid : s.selected .projectOperationalChars = some id)
    (hentity : entity ∈ (operationalRows store ⟨.projectOperationalChars, id⟩).keys) :
    (charsOf store s entity).isSome := by
  rw [charsOf_eq, hid, Option.bind_some]
  exact (OrderedMap.mem_keys_iff _ _).1 hentity

/-- A project with zones in the selected fragment of load zones is located. -/
theorem loadZonesOf_ne_nil (hzoned : store.Zoned) {id : Nat}
    (hid : s.selected .projectLoadZones = some id)
    (hentity : entity ∈ (zoneMap store ⟨.projectLoadZones, id⟩).keys) :
    loadZonesOf store s entity ≠ [] := by
  have hgiven : ZonesGiven (zoneMap store ⟨.projectLoadZones, id⟩) :=
    OrderedMap.forall_getD hzoned OrderedMap.forall_entries_empty _
  rw [OrderedMap.mem_keys_iff, OrderedMap.contains, Option.isSome_iff_exists] at hentity
  obtain ⟨zones, hzones⟩ := hentity
  rw [loadZonesOf_eq, hid, Option.bind_some, hzones]
  exact hgiven (entity, zones) (OrderedMap.mem_entries_iff.2 hzones)

/-- In a scenario assembled from a store made of rows, as every loaded store is
    (`Store.madeOfRows_of_load`), a project is described unless the selected characteristics merely
    list it, and located unless the selected load zones do. -/
theorem assemble_covered (hrows : store.MadeOfRows) {chars zones : Nat}
    (hchars : s.selected .projectOperationalChars = some chars)
    (hzones : s.selected .projectLoadZones = some zones)
    (hok : (assemble store s r).outcome = .ok scenario) : ∀ p ∈ scenario.projects,
    (p.chars.isSome ∨ p.project ∈ memberSet store ⟨.projectOperationalChars, chars⟩ ∨
      p.project ∈ (zoneMap store ⟨.projectOperationalChars, chars⟩).keys) ∧
    (p.loadZones ≠ [] ∨ p.project ∈ memberSet store ⟨.projectLoadZones, zones⟩) := by
  have hnone := not_holds_of_ok hok
  obtain ⟨h, warnings, rfl⟩ := exists_resolved_of_ok hok
  intro p hp
  obtain ⟨project, hproject, rfl⟩ := List.mem_map.1 hp
  have hdescribed := mem_entities_of_covers hnone hchars (by decide) hproject
  have hlocated := mem_entities_of_covers hnone hzones (by decide) hproject
  rw [mem_entities_iff] at hdescribed hlocated
  constructor
  · rcases hdescribed with hmember | hzone | ⟨-, hrow⟩
    · exact .inr (.inl hmember)
    · exact .inr (.inr hzone)
    · exact .inl (isSome_charsOf hchars hrow)
  · rcases hlocated with hmember | hzone | ⟨hcategory, -⟩
    · exact .inr hmember
    · exact .inl (loadZonesOf_ne_nil hrows.zoned hzones hzone)
    · cases hcategory

/-- A store with a project which is described and located, and another one which the characteristics
    and the load zones merely list. -/
def listingStore : Store :=
  { zoneStore with
    members := .ofList [(⟨.loadZones, 1⟩, .ofList ["north"]),
      (⟨.projectPortfolio, 1⟩, .ofList ["wind", "gas_ct"]),
      (⟨.projectOperationalChars, 1⟩, .ofList ["wind"]),
      (⟨.projectLoadZones, 1⟩, .ofList ["wind"])]
    zones := .ofList [(⟨.projectLoadZones, 1⟩, .ofList [("gas_ct", .ofList ["north"])])]
    operationalChars := .ofList [(1, .ofList [
      ("gas_ct", { project := "gas_ct", operationalType := "gen_commit_bin" })])]
    projectFragments := ∅
    heatRateCurves := ∅ }

theorem madeOfRows_listingStore : listingStore.MadeOfRows := by
  have hfragments : ∀ registry ∈ listingStore.fragments.entries,
      Store.fragmentsOfRows [⟨1, "base", ""⟩] = .ok registry.2 := by decide
  have hmembers : Store.membersOfRows [⟨⟨.loadZones, 1⟩, "north"⟩, ⟨⟨.projectPortfolio, 1⟩, "wind"⟩,
      ⟨⟨.projectPortfolio, 1⟩, "gas_ct"⟩, ⟨⟨.projectOperationalChars, 1⟩, "wind"⟩,
      ⟨⟨.projectLoadZones, 1⟩, "wind"⟩] = .ok listingStore.members := by decide
  have hzones : Store.zonesOfRows [⟨⟨.projectLoadZones, 1⟩, "gas_ct", "north"⟩] =
      .ok listingStore.zones := by decide
  have hchars : Store.charsOfRows [⟨1, { project := "gas_ct", operationalType := "gen_commit_bin" }⟩] =
      .ok listingStore.operationalChars := by decide
  exact {
    fragments := fun registry hmem => ⟨_, hfragments registry hmem⟩
    members := ⟨_, hmembers⟩
    zones := ⟨_, hzones⟩
    operationalChars := ⟨_, hchars⟩
    projectFragments := OrderedMap.forall_entries_empty
    heatRateCurves := ⟨[], rfl⟩ }

/-- One of the two projects is described and located, and the other one is listed. -/
theorem assemble_covered_listing : ∃ scenario,
    (assemble listingStore zoneScenario temporalOnly).outcome = .ok scenario ∧
      scenario.projects.map (fun p => (p.chars.isSome, p.loadZones)) =
        [(false, []), (true, ["north"])] ∧
      ∀ p ∈ scenario.projects,
        (p.chars.isSome ∨ p.project ∈ memberSet listingStore ⟨.projectOperationalChars, 1⟩ ∨
          p.project ∈ (zoneMap listingStore ⟨.projectOperationalChars, 1⟩).keys) ∧
        (p.loadZones ≠ [] ∨ p.project ∈ memberSet listingStore ⟨.projectLoadZones, 1⟩) := by
  have hisOk : (assemble listingStore zoneScenario temporalOnly).outcome.isOk := by decide +kernel
  have hgiven : ((assemble listingStore zoneScenario temporalOnly).outcome.map fun scenario =>
      scenario.projects.map fun p => (p.chars.isSome, p.loadZones)) =
      .ok [(false, []), (true, ["north"])] := by decide +kernel
  obtain ⟨scenario, hok⟩ := exists_of_isOk hisOk
  rw [hok] at hgiven
  exact ⟨scenario, hok, Except.ok.inj hgiven, assemble_covered madeOfRows_listingStore rfl rfl hok⟩

/-- A project can be in an assembled scenario without characteristics and without load zones,
    although both are selected. -/
theorem exists_assembled_uncovered : listingStore.MadeOfRows ∧
    (zoneScenario.selected .projectPortfolio).isSome ∧
    (zoneScenario.selected .projectOperationalChars).isSome ∧
    (zoneScenario.selected .projectLoadZones).isSome ∧
    ∃ scenario, (assemble listingStore zoneScenario temporalOnly).outcome = .ok scenario ∧
      ∃ p ∈ scenario.projects, p.project = "wind" ∧ p.chars = none ∧ p.loadZones = [] := by
  have hisOk : (assemble listingStore zoneScenario temporalOnly).outcome.isOk := by decide +kernel
  have hgiven : ((assemble listingStore zoneScenario temporalOnly).outcome.toOption.any fun scenario =>
      scenario.projects.any fun p => p.project = "wind" ∧ p.chars = none ∧ p.loadZones = []) := by
    decide +kernel
  obtain ⟨scenario, hok⟩ := exists_of_isOk hisOk
  rw [hok] at hgiven
  obtain ⟨p, hp, hwind⟩ := List.any_eq_true.1 hgiven
  exact ⟨madeOfRows_listingStore, rfl, rfl, rfl, scenario, hok, p, hp, of_decide_eq_true hwind⟩

end Assembly

end CapacityExpansion
