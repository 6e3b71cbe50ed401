import CapacityExpansion.Proofs.Data.Increasing
import CapacityExpansion.Proofs.Data.Success
import CapacityExpansion.Proofs.Temporal.WellFormed

/-!
# What the tables declare

The stages, timepoints, horizons and balancing types read off the tables are
those which the rows declare, in increasing order where they have one.

* `mem_stagesOf_iff`, `mem_timepointsOf_iff`, `hasHorizon_iff`,
  `mem_balancingTypes_iff`: what is read off;
* `increasing_stagesOf`, `increasing_timepointsOf`: its order;
* `checkDeclarations_ok_iff`: the checks of the declarations pass if and only if
  the declarations fit together.
-/

namespace CapacityExpansion.Temporal

theorem isPositive_iff {x : Float} : isPositive x ↔ Positive x := by
  simp [isPositive, Positive]

namespace Tables

variable {t : Tables} {p s : Nat} {b : BalancingType}

/-! ## Subproblems and stages -/

@[simp] theorem mem_subproblemsInOrder : p ∈ t.subproblemsInOrder ↔ p ∈ t.subproblems := mem_sortOn

theorem increasing_subproblemsInOrder (h : t.subproblems.Nodup) :
    Increasing id t.subproblemsInOrder :=
  increasing_sortOn (by rwa [List.map_id])

theorem mem_stageRows_iff {row : StageRow} :
    row ∈ t.stageRows p ↔ row ∈ t.stages ∧ row.subproblem = p := by
  rw [stageRows, List.mem_filter, beq_iff_eq]

/-- The stages of a subproblem are those of its rows, or else the single default one. -/
theorem mem_stagesOf_iff {name : String} : (s, name) ∈ t.stagesOf p ↔
    ⟨p, s, name⟩ ∈ t.stages ∨
      (∀ row ∈ t.stages, row.subproblem ≠ p) ∧ (s, name) = defaultStage := by
  have hrow : ∀ row ∈ t.stageRows p, row.subproblem = p := fun row h => (mem_stageRows_iff.1 h).2
  unfold stagesOf
  split
  · next hnil =>
    have hnone : ∀ row ∈ t.stages, row.subproblem ≠ p := fun row hmem e =>
      List.not_mem_nil (hnil ▸ mem_stageRows_iff.2 ⟨hmem, e⟩)
    rw [List.mem_singleton]
    exact ⟨fun e => .inr ⟨hnone, e⟩, fun h => h.elim (fun h => absurd rfl (hnone _ h)) And.right⟩
  · next hne =>
    obtain ⟨first, hfirst⟩ := List.exists_mem_of_ne_nil _ hne
    rw [mem_sortOn, List.mem_map]
    constructor
    · rintro ⟨⟨p', s', name'⟩, hmem, e⟩
      cases e
      cases hrow _ hmem
      exact .inl (mem_stageRows_iff.1 hmem).1
    · rintro (hmem | ⟨hnone, -⟩)
      · exact ⟨_, mem_stageRows_iff.2 ⟨hmem, rfl⟩, rfl⟩
      · exact absurd (hrow first hfirst) (hnone first (mem_stageRows_iff.1 hfirst).1)

/-- A declared subproblem has the stages which are read off for it. -/
theorem isStage_iff : t.IsStage p s ↔ p ∈ t.subproblems ∧ ∃ name, (s, name) ∈ t.stagesOf p := by
  refine and_congr_right fun _ => ?_
  simp only [mem_stagesOf_iff, defaultStage, Prod.mk.injEq]
  constructor
  · rintro (⟨⟨p', s', name⟩, hmem, rfl, rfl⟩ | ⟨hnone, rfl⟩)
    · exact ⟨name, .inl hmem⟩
    · exact ⟨"", .inr ⟨hnone, rfl, rfl⟩⟩
  · rintro ⟨name, hmem | ⟨hnone, rfl, -⟩⟩
    · exact .inl ⟨_, hmem, rfl, rfl⟩
    · exact .inr ⟨hnone, rfl⟩

/-- Every subproblem has a stage. -/
theorem exists_isStage (hp : p ∈ t.subproblems) : ∃ s, t.IsStage p s := by
  by_cases h : ∃ row ∈ t.stages, row.subproblem = p
  · obtain ⟨row, hrow, e⟩ := h
    exact ⟨row.stage, hp, .inl ⟨row, hrow, e, rfl⟩⟩
  · exact ⟨1, hp, .inr ⟨fun row hrow e => h ⟨row, hrow, e⟩, rfl⟩⟩

theorem hasStage_iff (hp : p ∈ t.subproblems) : t.hasStage p s ↔ t.IsStage p s := by
  rw [hasStage, List.any_eq_true, isStage_iff]
  simp [hp]

theorem increasing_stagesOf
    (h : (t.stages.map fun row => (row.subproblem, row.stage)).Nodup) :
    Increasing Prod.fst (t.stagesOf p) := by
  unfold stagesOf
  split
  · exact List.pairwise_singleton _ _
  · refine increasing_sortOn ?_
    rw [List.map_map]
    have hrows : ((t.stageRows p).map fun row => (row.subproblem, row.stage)).Nodup :=
      h.sublist (List.filter_sublist.map _)
    refine (List.nodup_map_iff_inj_on (List.Nodup.of_map _ hrows)).2 fun a ha c hc e => ?_
    refine List.inj_on_of_nodup_map hrows ha hc ?_
    rw [(mem_stageRows_iff.1 ha).2, (mem_stageRows_iff.1 hc).2, show a.stage = c.stage from e]

/-! ## Timepoints -/

theorem mem_timepointsOf_iff {tp : Timepoint} :
    tp ∈ t.timepointsOf p s ↔ ⟨p, s, tp⟩ ∈ t.timepoints := by
  rw [timepointsOf, mem_sortOn, List.mem_map]
  simp only [List.mem_filter, Bool.and_eq_true, beq_iff_eq]
  constructor
  · rintro ⟨⟨_, _, _⟩, ⟨hmem, rfl, rfl⟩, rfl⟩
    exact hmem
  · exact fun hmem => ⟨_, ⟨hmem, rfl, rfl⟩, rfl⟩

theorem isTimepoint_iff {τ : Nat} :
    t.IsTimepoint p s τ ↔ ∃ tp ∈ t.timepointsOf p s, tp.id = τ := by
  simp only [mem_timepointsOf_iff]
  constructor
  · rintro ⟨⟨_, _, tp⟩, hmem, rfl, rfl, e⟩
    exact ⟨tp, hmem, e⟩
  · rintro ⟨tp, hmem, e⟩
    exact ⟨_, hmem, rfl, rfl, e⟩

theorem timepointsOf_ne_nil_iff : t.timepointsOf p s ≠ [] ↔ ∃ τ, t.IsTimepoint p s τ := by
  simp only [isTimepoint_iff]
  constructor
  · intro h
    obtain ⟨tp, hmem⟩ := List.exists_mem_of_ne_nil _ h
    exact ⟨tp.id, tp, hmem, rfl⟩
  · rintro ⟨_, tp, hmem, -⟩
    exact List.ne_nil_of_mem hmem

/-- The timepoints of a stage are in order. -/
theorem increasing_timepointsOf
    (h : (t.timepoints.map fun row => (row.subproblem, row.stage, row.timepoint.id)).Nodup) :
    Increasing Timepoint.id (t.timepointsOf p s) := by
  refine increasing_sortOn ?_
  rw [List.map_map]
  refine (List.nodup_map_iff_inj_on ((List.Nodup.of_map _ h).filter _)).2 fun a ha c hc e => ?_
  simp only [List.mem_filter, Bool.and_eq_true, beq_iff_eq] at ha hc
  refine List.inj_on_of_nodup_map h ha.1 hc.1 ?_
  rw [ha.2.1, ha.2.2, hc.2.1, hc.2.2, show a.timepoint.id = c.timepoint.id from e]

/-! ## Horizons -/

theorem mem_horizonsOf_iff {row : HorizonRow} :
    row ∈ t.horizonsOf p b ↔ row ∈ t.horizons ∧ row.subproblem = p ∧ row.balancingType = b := by
  rw [horizonsOf, List.mem_filter, Bool.and_eq_true, beq_iff_eq, beq_iff_eq]

theorem isHorizon_iff {h : HorizonName} :
    t.IsHorizon p b h ↔ h ∈ (t.horizonsOf p b).map HorizonRow.horizon := by
  simp only [List.mem_map, mem_horizonsOf_iff, IsHorizon, and_assoc]

theorem hasHorizon_iff {h : HorizonName} : t.hasHorizon p b h ↔ t.IsHorizon p b h := by
  simp only [hasHorizon, isHorizon_iff, List.any_eq_true, beq_iff_eq, List.mem_map]

/-- The horizons of a subproblem and a balancing type have distinct names. -/
theorem nodup_horizonsOf
    (h : (t.horizons.map fun row => (row.subproblem, row.balancingType, row.horizon)).Nodup) :
    ((t.horizonsOf p b).map HorizonRow.horizon).Nodup := by
  have hrows : (t.horizonsOf p b).Nodup := (List.Nodup.of_map _ h).filter _
  refine (List.nodup_map_iff_inj_on hrows).2 fun a ha c hc e => ?_
  rw [mem_horizonsOf_iff] at ha hc
  refine List.inj_on_of_nodup_map h ha.1 hc.1 ?_
  rw [ha.2.1, ha.2.2, hc.2.1, hc.2.2, e]

theorem mem_balancingTypes_iff : b ∈ t.balancingTypes ↔ t.IsBalancingType b := by
  simp only [balancingTypes, OrderedSet.mem_ofList, List.mem_flatMap, List.mem_map,
    List.mem_filter, beq_iff_eq]
  constructor
  · rintro ⟨_, _, row, ⟨hmem, -⟩, e⟩
    exact ⟨row, hmem, e⟩
  · rintro ⟨row, hmem, e⟩
    exact ⟨row.subproblem, ⟨row, hmem, rfl⟩, row, ⟨hmem, rfl⟩, e⟩

theorem nodup_balancingTypes : t.balancingTypes.Nodup := OrderedSet.nodup _

/-! ## The checks -/

variable {place : Location}

theorem checkPeriods_ok_iff {rows : List Period} :
    checkInOrder (checkPeriod place) [] rows = .ok () ↔
      (∀ row ∈ rows, Positive row.discountFactor ∧ Positive row.yearsRepresented) ∧
        (rows.map Period.id).Nodup := by
  refine checkInOrder_nodup_iff
    (fun row : Period => Positive row.discountFactor ∧ Positive row.yearsRepresented) Period.id
    (fun earlier row => ?_) rows
  simp only [checkPeriod, seq_ok_iff, require_ok_iff, isPositive_iff, and_assoc]

theorem checkSubproblems_ok_iff {rows : List Nat} :
    checkInOrder (checkSubproblem place) [] rows = .ok () ↔ rows.Nodup := by
  have hcheck : ∀ earlier row, checkSubproblem place earlier row = .ok () ↔
      True ∧ id row ∉ earlier.map id := fun earlier row => by
    rw [checkSubproblem, require_ok_iff, List.map_id, id, true_and]
  rw [checkInOrder_nodup_iff _ _ hcheck, List.map_id]
  exact and_iff_right fun _ _ => trivial

theorem checkStages_ok_iff {rows : List StageRow} :
    checkInOrder (t.checkStage place) [] rows = .ok () ↔
      (∀ row ∈ rows, row.subproblem ∈ t.subproblems) ∧
        (rows.map fun row => (row.subproblem, row.stage)).Nodup := by
  refine checkInOrder_nodup_iff (·.subproblem ∈ t.subproblems) _ (fun earlier row => ?_) rows
  simp only [checkStage, seq_ok_iff, require_ok_iff]

theorem checkTimepoints_ok_iff {rows : List TimepointRow} :
    checkInOrder (t.checkTimepoint place) [] rows = .ok () ↔
      (∀ row ∈ rows, t.IsStage row.subproblem row.stage ∧
        0 < row.timepoint.id ∧ row.timepoint.period ∈ t.periods.map Period.id ∧
        Positive row.timepoint.hours ∧ Positive row.timepoint.weight) ∧
        (rows.map fun row => (row.subproblem, row.stage, row.timepoint.id)).Nodup := by
  refine checkInOrder_nodup_iff (fun row => t.IsStage row.subproblem row.stage ∧
    0 < row.timepoint.id ∧ row.timepoint.period ∈ t.periods.map Period.id ∧
    Positive row.timepoint.hours ∧ Positive row.timepoint.weight) _
    (fun earlier row => ?_) rows
  have hstage : row.subproblem ∈ t.subproblems ∧ t.hasStage row.subproblem row.stage ↔
      t.IsStage row.subproblem row.stage :=
    ⟨fun h => (hasStage_iff h.1).1 h.2, fun h => ⟨h.1, (hasStage_iff h.1).2 h⟩⟩
  simp only [checkTimepoint, seq_ok_iff, require_ok_iff, isPositive_iff, ← hstage,
    Nat.pos_iff_ne_zero, and_assoc]

theorem checkHorizons_ok_iff {rows : List HorizonRow} :
    checkInOrder (t.checkHorizon place) [] rows = .ok () ↔
      (∀ row ∈ rows, row.subproblem ∈ t.subproblems) ∧
        (rows.map fun row => (row.subproblem, row.balancingType, row.horizon)).Nodup := by
  refine checkInOrder_nodup_iff (·.subproblem ∈ t.subproblems) _ (fun earlier row => ?_) rows
  simp only [checkHorizon, seq_ok_iff, require_ok_iff]

/-- The checks pass if and only if the declarations fit together. -/
theorem checkDeclarations_ok_iff : t.checkDeclarations place = .ok () ↔ t.WellDeclared := by
  simp only [checkDeclarations, seq_ok_iff, require_ok_iff, checkPeriods_ok_iff,
    checkSubproblems_ok_iff, checkStages_ok_iff, checkTimepoints_ok_iff, checkHorizons_ok_iff]
  constructor
  · rintro ⟨hperiods, ⟨hpos, hperiod⟩, hsubproblems, hsub, ⟨hstage, hstages⟩, ⟨htp, htps⟩,
      hhorizon, hhorizons⟩
    exact {
      periods_ne_nil := hperiods
      nodup_periods := hperiod
      positive_period := hpos
      subproblems_ne_nil := hsubproblems
      nodup_subproblems := hsub
      subproblem_of_stage := hstage
      nodup_stages := hstages
      stage_of_timepoint := fun row h => (htp row h).1
      period_of_timepoint := fun row h => (htp row h).2.2.1
      positive_timepoint := fun row h => ⟨(htp row h).2.1, (htp row h).2.2.2⟩
      nodup_timepoints := htps
      subproblem_of_horizon := hhorizon
      nodup_horizons := hhorizons }
  · intro h
    exact ⟨h.periods_ne_nil, ⟨h.positive_period, h.nodup_periods⟩, h.subproblems_ne_nil,
      h.nodup_subproblems, ⟨h.subproblem_of_stage, h.nodup_stages⟩,
      ⟨fun row hr => ⟨h.stage_of_timepoint row hr, (h.positive_timepoint row hr).1,
        h.period_of_timepoint row hr, (h.positive_timepoint row hr).2⟩, h.nodup_timepoints⟩,
      h.subproblem_of_horizon, h.nodup_horizons⟩

end Tables

end CapacityExpansion.Temporal
