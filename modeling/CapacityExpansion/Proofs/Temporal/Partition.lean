import CapacityExpansion.Proofs.Temporal.Acceptance
import CapacityExpansion.Proofs.Temporal.Links

/-!
# Timelines are partitions

Every balancing type of the tables splits the timepoints of every stage into
horizons: those which the subproblem declares, each once and none of them empty,
in order, with each timepoint where the rows put it. The links of the timeline
name the horizons.

* `Tables.Partitions`: what it means to split the timepoints;
* `resolve_partitions`: every timeline of a resolved hierarchy does.
-/

namespace CapacityExpansion.Temporal

open Tables

/-- The timeline `tl` splits the timepoints of a stage of `p` into the horizons of `b`. -/
structure Tables.Partitions (t : Tables) (p : Nat) (stage : Stage) (b : BalancingType)
    (tl : Timeline) : Prop where
  /-- The horizons are those declared. -/
  declared : ∀ name boundary, ⟨p, b, name, boundary⟩ ∈ t.horizons ↔
    ∃ hz ∈ tl.horizons, hz.name = name ∧ hz.declared = boundary
  nodup : (tl.horizons.map Horizon.name).Nodup
  ne_nil : ∀ hz ∈ tl.horizons, hz.timepoints ≠ []
  /-- One after the other, the horizons make up the stage. -/
  flatMap_timepoints : tl.horizons.flatMap Horizon.timepoints = stage.timepoints.map Timepoint.id
  mem_timepoints_iff : ∀ hz ∈ tl.horizons, ∀ τ, τ ∈ hz.timepoints ↔ t.Puts p stage.id b τ hz.name
  /-- The links go through the timepoints in order. -/
  map_timepoint_links : tl.links.map Link.timepoint = stage.timepoints.map Timepoint.id
  horizon_link : ∀ link ∈ tl.links,
    ∃ hz ∈ tl.horizons, link.horizon = hz.name ∧ link.timepoint ∈ hz.timepoints
  horizonOf_eq : ∀ hz ∈ tl.horizons, ∀ τ ∈ hz.timepoints, stage.horizonOf τ b = some hz.name

variable {fragment p : Nat} {t : Tables} {H : Hierarchy} {stage : Stage} {b : BalancingType}
  {tl : Timeline}

theorem Tables.ResolvesStage.partitions (h : t.ResolvesStage p stage) (ht : t.WellDeclared)
    (htl : stage.timeline? b = some tl) : t.Partitions p stage b tl := by
  have hres := h.resolvesTimeline htl
  refine ⟨fun name boundary => ⟨hres.exists_horizon, ?_⟩, hres.nodup_names ht, hres.ne_nil, ?_,
    hres.mem_timepoints_iff, ?_, fun link hlink => ?_, fun hz hmem τ => h.horizonOf_eq ht htl hmem⟩
  · rintro ⟨hz, hmem, rfl, rfl⟩
    exact hres.declared_mem hmem
  · rw [h.timepoints, hres.flatMap_timepoints]
  · rw [h.timepoints, hres.map_timepoint_links]
  · obtain ⟨hz, hmem, i, τ, hi, rfl⟩ := hres.mem_links_iff.1 hlink
    exact ⟨hz, hmem, rfl, List.mem_of_getElem? hi⟩

/-- Every stage of a resolved hierarchy has its timepoints in increasing order, and a timeline for
    each balancing type of the tables, which splits them into horizons. -/
theorem resolve_partitions (hok : (resolve fragment t).outcome = .ok H)
    (hmem : (p, stage) ∈ H.stages) :
    Increasing Timepoint.id stage.timepoints ∧
      (∀ tp, tp ∈ stage.timepoints ↔ ⟨p, stage.id, tp⟩ ∈ t.timepoints) ∧
      stage.balancingTypes.Nodup ∧ (∀ b, b ∈ stage.balancingTypes ↔ t.IsBalancingType b) ∧
      ∀ b, t.IsBalancingType b → ∃ tl, stage.timeline? b = some tl ∧ t.Partitions p stage b tl := by
  have hres := resolves_of_ok hok
  have ht := hres.declared
  have hstage := (hres.of_mem_stages hmem).2
  refine ⟨?_, fun tp => ?_, ?_, fun b => ?_, fun b hb => ?_⟩
  · rw [hstage.timepoints]
    exact increasing_timepointsOf ht.nodup_timepoints
  · rw [hstage.timepoints, mem_timepointsOf_iff]
  · rw [hstage.balancingTypes_eq]
    exact nodup_balancingTypes
  · rw [hstage.balancingTypes_eq, mem_balancingTypes_iff]
  · obtain ⟨tl, htl⟩ := hstage.exists_timeline hb
    exact ⟨tl, htl, hstage.partitions ht htl⟩

/-- The hours of the second day are split into the horizon of the first one and that of the second
    one, which are declared in the opposite order. -/
theorem resolve_partitions_twoDays : ∃ H stage, (resolve 1 twoDays).outcome = .ok H ∧
    (2, stage) ∈ H.stages ∧
      ∃ tl, stage.timeline? "hour" = some tl ∧ twoDays.Partitions 2 stage "hour" tl := by
  obtain ⟨H, hok, stage, hmem⟩ := exists_resolve_twoDays
  obtain ⟨-, -, -, -, htimelines⟩ := resolve_partitions hok hmem
  exact ⟨H, stage, hok, hmem, htimelines "hour" ⟨⟨1, "hour", "all", .circular⟩, by decide, rfl⟩⟩

end CapacityExpansion.Temporal
