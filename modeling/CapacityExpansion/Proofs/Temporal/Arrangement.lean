import CapacityExpansion.Proofs.Temporal.Acceptance
import Mathlib.Order.Bounds.Defs

/-!
# The contents of a hierarchy

A resolved hierarchy holds what the tables hold, and nothing else. Rows may stand
in any order and those of different stages may be mixed: each period, subproblem,
stage and timepoint is in the hierarchy once, unchanged and in its place, and all
of them are in the order of their numbers. Only what rows say of each other is
computed: which timepoints make up a horizon, and for how many hours.

* `Arranges`: a list holds given rows, in order;
* `Hierarchy.Holds`: a hierarchy holds given tables, in order;
* `exists_horizonFor_of_mem`: the horizons of a hierarchy;
* `resolve_holds`: every resolved hierarchy holds its tables.
-/

namespace CapacityExpansion

theorem foldl_max_le_iff {l : List Nat} {a n : Nat} :
    l.foldl max a ≤ n ↔ a ≤ n ∧ ∀ x ∈ l, x ≤ n := by
  induction l generalizing a with
  | nil => simp
  | cons x l ih => rw [List.foldl_cons, ih, Nat.max_le, List.forall_mem_cons, and_assoc]

/-- `l` holds `rows` and nothing else, each of them once, in the order of distinct numbers. -/
structure Arranges {α : Type} (key : α → Nat) (rows l : List α) : Prop where
  increasing : Increasing key l
  perm : l.Perm rows

/-- Rows with distinct numbers are arranged by sorting them. -/
theorem arranges_sortOn {α : Type} {key : α → Nat} {rows : List α} (h : (rows.map key).Nodup) :
    Arranges key rows (sortOn key rows) :=
  ⟨increasing_sortOn h, sortOn_perm key rows⟩

namespace Temporal

open Tables

/-! ## What is in the tables and in a hierarchy -/

/-- The stages which the rows name for a subproblem, or the stage 1 without a name if they name
    none. -/
def Tables.namedStages (t : Tables) (p : Nat) : List (Nat × String) :=
  let named := (t.stages.filter (·.subproblem = p)).map fun row => (row.stage, row.name)
  if named = [] then [(1, "")] else named

/-- The timepoints in the rows of a stage. -/
def Tables.timepointsIn (t : Tables) (p s : Nat) : List Timepoint :=
  (t.timepoints.filter fun row => row.subproblem = p ∧ row.stage = s).map TimepointRow.timepoint

/-- The timepoints of a stage which are in a horizon. -/
def Stage.timepointsIn (stage : Stage) (hz : Horizon) : List Timepoint :=
  stage.timepoints.filter (·.id ∈ hz.timepoints)

/-- The hierarchy `H` holds the tables `t`, in order. -/
structure Hierarchy.Holds (H : Hierarchy) (t : Tables) : Prop where
  periods : Arranges Period.id t.periods H.periods
  subproblems : Arranges id t.subproblems (H.subproblems.map Subproblem.id)
  stages : ∀ sub ∈ H.subproblems, Arranges Prod.fst (t.namedStages sub.id)
    (sub.stages.map fun stage => (stage.id, stage.name))
  timepoints : ∀ sub ∈ H.subproblems, ∀ stage ∈ sub.stages,
    Arranges Timepoint.id (t.timepointsIn sub.id stage.id) stage.timepoints
  /-- The timepoints of all stages are all rows. -/
  timepointRows : (H.stages.flatMap fun e => e.2.timepoints.map (⟨e.1, e.2.id, ·⟩)).Perm
    t.timepoints
  /-- The hours of a horizon are those of its timepoints, summed from left to right. -/
  durations : ∀ sub ∈ H.subproblems, ∀ stage ∈ sub.stages, ∀ tl ∈ stage.timelines,
    ∀ hz ∈ tl.horizons, (stage.timepointsIn hz).map Timepoint.id = hz.timepoints ∧
      hz.duration = ((stage.timepointsIn hz).map Timepoint.hours).foldl (· + ·) 0
  mem_stages_iff : ∀ p stage, (p, stage) ∈ H.stages ↔
    ∃ sub ∈ H.subproblems, sub.id = p ∧ stage ∈ sub.stages
  stages_inOrder : H.stages.Pairwise fun a b => a.1 < b.1 ∨ a.1 = b.1 ∧ a.2.id < b.2.id
  stage?_eq_some_iff : ∀ p s stage, H.stage? p s = some stage ↔ (p, stage) ∈ H.stages ∧ stage.id = s
  maxStageCount : IsGreatest {n | ∃ sub ∈ H.subproblems, sub.stages.length = n} H.maxStageCount

variable {fragment p s : Nat} {t : Tables} {H : Hierarchy} {stage : Stage} {tl : Timeline}
  {hz : Horizon}

/-! ## Stages and timepoints -/

/-- The stages of a subproblem are arranged as they are read off. -/
theorem Tables.arranges_stagesOf (ht : t.WellDeclared) (p : Nat) :
    Arranges Prod.fst (t.namedStages p) (t.stagesOf p) := by
  refine ⟨increasing_stagesOf ht.nodup_stages, ?_⟩
  have hrows : t.stages.filter (·.subproblem = p) = t.stageRows p :=
    List.filter_congr fun _ _ => (beq_eq_decide _ _).symm
  rw [namedStages, hrows]
  unfold stagesOf
  split
  · next hnil =>
    rw [hnil]
    exact .refl _
  · next hne =>
    rw [if_neg (fun e => hne (List.map_eq_nil_iff.1 e))]
    exact sortOn_perm _ _

theorem Tables.arranges_timepointsOf (ht : t.WellDeclared) (p s : Nat) :
    Arranges Timepoint.id (t.timepointsIn p s) (t.timepointsOf p s) := by
  refine ⟨increasing_timepointsOf ht.nodup_timepoints, ?_⟩
  have hrows : (t.timepoints.filter fun row => row.subproblem = p ∧ row.stage = s) =
      t.timepoints.filter fun row => row.subproblem == p && row.stage == s :=
    List.filter_congr fun row _ => by
      rw [Bool.decide_and, beq_eq_decide, beq_eq_decide]
  rw [timepointsIn, hrows]
  exact sortOn_perm _ _

namespace Tables.Resolves

/-- The timepoints of the stages of a hierarchy are those of the rows. -/
theorem perm_timepointRows (h : t.Resolves H) :
    (H.stages.flatMap fun e => e.2.timepoints.map (⟨e.1, e.2.id, ·⟩)).Perm t.timepoints := by
  have ht := h.declared
  refine (List.perm_ext_iff_of_nodup ?_ (List.Nodup.of_map _ ht.nodup_timepoints)).2 fun row => ?_
  · rw [List.nodup_flatMap]
    constructor
    · intro e hmem
      rw [(h.of_mem_stages hmem).2.timepoints]
      exact (increasing_timepointsOf ht.nodup_timepoints).nodup.map fun _ _ e =>
        (TimepointRow.mk.inj e).2.2
    · -- Rows of different stages differ in the subproblem or in the stage.
      refine h.pairwise_stages.imp fun {a b} hlt => List.disjoint_left.2 ?_
      intro row ha hb
      obtain ⟨_, -, rfl⟩ := List.mem_map.1 ha
      obtain ⟨_, -, e⟩ := List.mem_map.1 hb
      obtain ⟨hp, hs, -⟩ := TimepointRow.mk.inj e
      omega
  · obtain ⟨p, s, tp⟩ := row
    rw [List.mem_flatMap]
    constructor
    · rintro ⟨⟨q, stage⟩, hmem, hrow⟩
      obtain ⟨tp', htp', e⟩ := List.mem_map.1 hrow
      obtain ⟨rfl, rfl, rfl⟩ := TimepointRow.mk.inj e
      rwa [(h.of_mem_stages hmem).2.timepoints, mem_timepointsOf_iff] at htp'
    · intro hrow
      obtain ⟨stage, hmem, rfl⟩ := h.exists_stage (ht.stage_of_timepoint _ hrow)
      refine ⟨_, hmem, List.mem_map.2 ⟨tp, ?_, rfl⟩⟩
      rwa [(h.of_mem_stages hmem).2.timepoints, mem_timepointsOf_iff]

end Tables.Resolves

/-- The largest number of stages is at most what bounds the number of stages of each subproblem. -/
theorem Hierarchy.maxStageCount_le_iff {n : Nat} :
    H.maxStageCount ≤ n ↔ ∀ subproblem ∈ H.subproblems, subproblem.stages.length ≤ n := by
  simp [maxStageCount, foldl_max_le_iff]

/-- Some subproblem has the largest number of stages, if there is a subproblem. -/
theorem Hierarchy.isGreatest_maxStageCount (hne : H.subproblems ≠ []) :
    IsGreatest {n | ∃ sub ∈ H.subproblems, sub.stages.length = n} H.maxStageCount := by
  have hle := Hierarchy.maxStageCount_le_iff.1 (Nat.le_refl H.maxStageCount)
  refine ⟨?_, ?_⟩
  · by_contra hnone
    -- If every number of stages were smaller, so would be the largest of them.
    have hlt : ∀ sub ∈ H.subproblems, sub.stages.length < H.maxStageCount := fun sub hsub =>
      Nat.lt_of_le_of_ne (hle sub hsub) fun e => hnone ⟨sub, hsub, e⟩
    obtain ⟨sub, hsub⟩ := List.exists_mem_of_ne_nil _ hne
    have hpos := hlt sub hsub
    have hmax : H.maxStageCount ≤ H.maxStageCount - 1 :=
      Hierarchy.maxStageCount_le_iff.2 fun sub hsub => Nat.le_sub_one_of_lt (hlt sub hsub)
    omega
  · rintro _ ⟨sub, hsub, rfl⟩
    exact hle sub hsub

/-! ## Horizons -/

/-- A stage of a hierarchy has been resolved by itself. -/
theorem exists_resolveStage_of_mem (hok : (resolve fragment t).outcome = .ok H)
    (hmem : (p, stage) ∈ H.stages) : ∃ rows s, t.membership (.ofFragment fragment) = .ok rows ∧
      (resolveStage (.ofFragment fragment) t rows (t.previous? p) p s).outcome = .ok stage := by
  obtain ⟨-, rows, subs, hrows, hsubs, rfl⟩ := resolve_ok_iff.1 hok
  obtain ⟨sub, hsub, hmem⟩ := List.mem_flatMap.1 hmem
  obtain ⟨stage, hstage, e⟩ := List.mem_map.1 hmem
  cases e
  obtain ⟨p, -, hok⟩ := exists_of_mem_forall₂ hsubs hsub
  obtain ⟨rfl, hstages, -⟩ := resolveSubproblem_ok_iff.1 hok
  obtain ⟨s, -, hok⟩ := exists_of_mem_forall₂ hstages hstage
  exact ⟨rows, s, hrows, hok⟩

/-- A horizon of a hierarchy is made of the timepoints of its stage which are put into it. -/
theorem exists_horizonFor_of_mem (hok : (resolve fragment t).outcome = .ok H)
    (hmem : (p, stage) ∈ H.stages) (htl : tl ∈ stage.timelines) (hhz : hz ∈ tl.horizons) :
    ∃ assigned row isFirst hasPrevious,
      hz = (horizonFor assigned stage.timepoints row).settled isFirst hasPrevious := by
  obtain ⟨ht, ha⟩ : t.WellDeclared ∧ t.WellAssigned :=
    ⟨(resolves_of_ok hok).declared, (resolves_of_ok hok).assigned⟩
  obtain ⟨rows, s, hrows, hok⟩ := exists_resolveStage_of_mem hok hmem
  obtain ⟨-, -, tls, htls, rfl⟩ := resolveStage_ok_iff.1 hok
  obtain ⟨b, -, hok⟩ := exists_of_mem_forall₂ htls htl
  obtain ⟨hs, hordered, -, rfl⟩ := resolveTimeline_ok_iff.1 hok
  obtain ⟨hz', hmem', isFirst, rfl⟩ := exists_of_mem_settled hhz
  have hfor := (splits_of_ok ht ha hrows hordered).perm.mem_iff.1 hmem'
  obtain ⟨row, -, rfl⟩ := List.mem_map.1 hfor
  exact ⟨_, row, isFirst, _, rfl⟩

/-- What a horizon is made of is what its numbers say. -/
theorem filter_mem_horizonFor (assigned : Nat → Option HorizonName) (tps : List Timepoint)
    (row : HorizonRow) : tps.filter (·.id ∈ (horizonFor assigned tps row).timepoints) =
      membersOf assigned tps row.horizon := by
  refine List.filter_congr fun tp htp => ?_
  rw [← Bool.coe_iff_coe, decide_eq_true_iff, beq_iff_eq, horizonFor, List.mem_map]
  constructor
  · rintro ⟨tp', hmem, e⟩
    rw [← e]
    exact (mem_membersOf_iff.1 hmem).2
  · intro hassigned
    exact ⟨tp, mem_membersOf_iff.2 ⟨htp, hassigned⟩, rfl⟩

theorem duration_of_mem (hok : (resolve fragment t).outcome = .ok H)
    (hmem : (p, stage) ∈ H.stages) (htl : tl ∈ stage.timelines) (hhz : hz ∈ tl.horizons) :
    (stage.timepointsIn hz).map Timepoint.id = hz.timepoints ∧
      hz.duration = ((stage.timepointsIn hz).map Timepoint.hours).foldl (· + ·) 0 := by
  obtain ⟨assigned, row, isFirst, hasPrevious, rfl⟩ := exists_horizonFor_of_mem hok hmem htl hhz
  have hmembers : stage.timepointsIn ((horizonFor assigned stage.timepoints row).settled isFirst
      hasPrevious) = membersOf assigned stage.timepoints row.horizon :=
    filter_mem_horizonFor assigned stage.timepoints row
  rw [hmembers, List.foldl_map]
  exact ⟨rfl, rfl⟩

/-! ## Hierarchies -/

theorem Hierarchy.mem_stages_iff :
    (p, stage) ∈ H.stages ↔ ∃ sub ∈ H.subproblems, sub.id = p ∧ stage ∈ sub.stages := by
  simp only [Hierarchy.stages, List.mem_flatMap, List.mem_map, Prod.mk.injEq]
  refine ⟨fun h => ?_, fun h => ?_⟩
  · obtain ⟨sub, hsub, _, hstage, hid, rfl⟩ := h
    exact ⟨sub, hsub, hid, hstage⟩
  · obtain ⟨sub, hsub, hid, hstage⟩ := h
    exact ⟨sub, hsub, stage, hstage, hid, rfl⟩

namespace Tables.Resolves

theorem map_id_subproblems (h : t.Resolves H) :
    H.subproblems.map Subproblem.id = t.subproblemsInOrder := by
  have hmap := map_eq_map_of_forall₂ (f := id) (g := Subproblem.id) h.subproblems
    fun _ _ hsub => hsub.1.symm
  rw [← hmap, List.map_id]

theorem map_name_stages (h : t.Resolves H) {sub : Subproblem} (hsub : sub ∈ H.subproblems) :
    (sub.stages.map fun stage => (stage.id, stage.name)) = t.stagesOf sub.id := by
  obtain ⟨p, -, rfl, hstages⟩ := exists_of_mem_forall₂ h.subproblems hsub
  have hmap := map_eq_map_of_forall₂ (f := id) (g := fun stage : Stage => (stage.id, stage.name))
    hstages fun _ _ hstage => hstage.1.symm
  rw [← hmap, List.map_id]

/-- There is a subproblem, since one must be declared. -/
theorem subproblems_ne_nil (h : t.Resolves H) : H.subproblems ≠ [] := by
  intro hnil
  have hids := h.map_id_subproblems
  rw [hnil, List.map_nil] at hids
  have hperm : t.subproblemsInOrder.Perm t.subproblems := sortOn_perm id t.subproblems
  exact h.declared.subproblems_ne_nil (List.nil_perm.1 (hids ▸ hperm))

end Tables.Resolves

/-- A resolved hierarchy holds the tables, each row once and unchanged, in order. -/
theorem resolve_holds (hok : (resolve fragment t).outcome = .ok H) : H.Holds t := by
  have hres := resolves_of_ok hok
  have ht := hres.declared
  have hmem : ∀ sub ∈ H.subproblems, ∀ stage ∈ sub.stages, (sub.id, stage) ∈ H.stages :=
    fun sub hsub stage hstage => Hierarchy.mem_stages_iff.2 ⟨sub, hsub, rfl, hstage⟩
  refine ⟨?_, ?_, fun sub hsub => ?_, fun sub hsub stage hstage => ?_, hres.perm_timepointRows,
    fun sub hsub stage hstage tl htl hz hhz => ?_, fun _ _ => Hierarchy.mem_stages_iff,
    hres.pairwise_stages, fun _ _ _ => hres.stage?_eq_some_iff,
    Hierarchy.isGreatest_maxStageCount hres.subproblems_ne_nil⟩
  · obtain ⟨-, rows, subs, -, -, rfl⟩ := resolve_ok_iff.1 hok
    exact arranges_sortOn ht.nodup_periods
  · rw [hres.map_id_subproblems]
    exact arranges_sortOn (by rw [List.map_id]; exact ht.nodup_subproblems)
  · rw [hres.map_name_stages hsub]
    exact arranges_stagesOf ht sub.id
  · rw [(hres.of_mem_stages (hmem sub hsub stage hstage)).2.timepoints]
    exact arranges_timepointsOf ht sub.id stage.id
  · exact duration_of_mem hok (hmem sub hsub stage hstage) htl hhz

/-- The hierarchy of the two days holds their tables, whose rows are not in order. -/
theorem resolve_holds_twoDays :
    ∃ H, (resolve 1 twoDays).outcome = .ok H ∧ H.Holds twoDays := by
  obtain ⟨H, hok, -⟩ := exists_resolve_twoDays
  exact ⟨H, hok, resolve_holds hok⟩

end Temporal

end CapacityExpansion
