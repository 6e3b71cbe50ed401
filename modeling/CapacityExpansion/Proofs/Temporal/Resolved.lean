import CapacityExpansion.Proofs.Temporal.Stages

/-!
# Resolved hierarchies

What tables which are resolved say of the hierarchy: of every timeline
(`ResolvesTimeline`), of every stage (`ResolvesStage`), and of the subproblems
and stages there are (`Resolves`), without the computation which leads there.

* `resolves_of_ok`: this holds of every resolved hierarchy;
* `ResolvesStage.sameHorizons_iff`: when stages have the same horizons;
* `Resolves.of_mem_stages`, `Resolves.exists_stage`, `Resolves.pairwise_stages`:
  the stages of a hierarchy.
-/

namespace CapacityExpansion.Temporal

namespace Tables

/-- `tl` splits the timepoints of the stage `s` of `p` into the horizons of `b`. -/
structure ResolvesTimeline (t : Tables) (p s : Nat) (b : BalancingType) (tl : Timeline) :
    Prop where
  balancingType : tl.balancingType = b
  /-- Each declared horizon is there once. -/
  perm : (tl.horizons.map fun hz => (hz.name, hz.declared)).Perm
    ((t.horizonsOf p b).map fun row => (row.horizon, row.boundary))
  ne_nil : ∀ hz ∈ tl.horizons, hz.timepoints ≠ []
  flatMap_timepoints : tl.horizons.flatMap Horizon.timepoints =
    (t.timepointsOf p s).map Timepoint.id
  mem_timepoints_iff : ∀ hz ∈ tl.horizons, ∀ τ, τ ∈ hz.timepoints ↔ t.Puts p s b τ hz.name
  /-- Boundaries are settled, the first one with a view to the previous subproblem. -/
  settled : tl.horizons = Temporal.settled true (t.previous? p).isSome tl.horizons
  linkable : ∀ hz ∈ tl.horizons.head?, hz.declared = .linked →
    ∀ q, t.previous? p = some q → carriedOver (t.timepointsOf q s) ≠ []
  links : tl.links = tl.horizons.flatMap Horizon.links

/-- `stage` is a stage of `p` as the tables describe it. -/
structure ResolvesStage (t : Tables) (p : Nat) (stage : Stage) : Prop where
  timepoints : stage.timepoints = t.timepointsOf p stage.id
  timepoints_ne_nil : stage.timepoints ≠ []
  timelines : List.Forall₂ (t.ResolvesTimeline p stage.id) t.balancingTypes stage.timelines
  indices : CountsToZero (t.indicesOf p stage.id)
  linkedTimepoints : stage.linkedTimepoints = carriedOver stage.timepoints
  linkedPredecessors : stage.linkedPredecessors = if anyLinked stage.timelines then
    (t.sourceOf (t.previous? p) stage.id).elim [] Source.linked else []

/-- `H` has the subproblems and stages which the tables describe. -/
structure Resolves (t : Tables) (H : Hierarchy) : Prop where
  declared : t.WellDeclared
  assigned : t.WellAssigned
  subproblems : List.Forall₂ (fun p sub => sub.id = p ∧
    List.Forall₂ (fun s stage => (stage.id, stage.name) = s ∧ t.ResolvesStage p stage)
      (t.stagesOf p) sub.stages) t.subproblemsInOrder H.subproblems

end Tables

variable {place place' : Location} {t : Tables} {rows : List MemberRow} {p s : Nat}
  {b : BalancingType} {tl : Timeline} {stage : Stage} {H : Hierarchy}

/-! ## Timelines -/

theorem settled_settled {isFirst hasPrevious : Bool} (hs : List Horizon) :
    settled isFirst hasPrevious (settled isFirst hasPrevious hs) =
      settled isFirst hasPrevious hs := by
  induction hs generalizing isFirst with
  | nil => rfl
  | cons hz rest ih => rw [settled, settled, ih]; rfl

theorem flatMap_settled {isFirst hasPrevious : Bool} (hs : List Horizon) :
    (settled isFirst hasPrevious hs).flatMap Horizon.timepoints =
      hs.flatMap Horizon.timepoints := by
  rw [List.flatMap_def, List.flatMap_def, map_settled fun _ _ => rfl]

/-- The horizons of a stage in order split its timepoints. -/
theorem splits_of_ok (ht : t.WellDeclared) (ha : t.WellAssigned)
    (hrows : t.membership place = .ok rows) {hs : List Horizon}
    (hok : orderedHorizons place' rows p s b (t.timepointsOf p s) (t.horizonsOf p b) = .ok hs) :
    Splits (horizonAmong rows p s b) (t.timepointsOf p s) (t.horizonsOf p b) hs :=
  orderedHorizons_splits (Tables.increasing_timepointsOf ht.nodup_timepoints)
    (Tables.nodup_horizonsOf ht.nodup_horizons) (fun _ _ e => Tables.isHorizon_iff.1
      (ha.isHorizon ((Tables.horizonAmong_eq_some_iff ht hrows).1 e))) hok

theorem resolvesTimeline_of_ok (ht : t.WellDeclared) (ha : t.WellAssigned)
    (hrows : t.membership place = .ok rows)
    (hok : (resolveTimeline place' t rows (t.sourceOf (t.previous? p) s) p s (t.timepointsOf p s)
      b).outcome = .ok tl) : t.ResolvesTimeline p s b tl := by
  obtain ⟨hs, hordered, hlink, rfl⟩ := resolveTimeline_ok_iff.1 hok
  have hassigned : ∀ τ h, horizonAmong rows p s b τ = some h ↔ t.Puts p s b τ h :=
    fun _ _ => Tables.horizonAmong_eq_some_iff ht hrows
  have hsplits := splits_of_ok ht ha hrows hordered
  have hprevious : (t.sourceOf (t.previous? p) s).isSome = (t.previous? p).isSome :=
    Option.isSome_map
  rw [hprevious]
  -- Settling boundaries keeps names and timepoints, so all but the boundaries is that of `hs`.
  refine ⟨rfl, ?_, fun hz hmem => ?_, ?_, fun hz hmem τ => ?_, (settled_settled hs).symm, ?_, rfl⟩
  · have hperm := hsplits.perm.map fun hz => (hz.name, hz.declared)
    rw [List.map_map] at hperm
    change ((settled _ _ hs).map _).Perm _
    rwa [map_settled fun _ _ => rfl]
  · obtain ⟨hz, hmem', _, rfl⟩ := exists_of_mem_settled hmem
    exact hsplits.ne_nil hz hmem'
  · exact (flatMap_settled hs).trans hsplits.flatMap_timepoints
  · obtain ⟨hz, hmem', _, rfl⟩ := exists_of_mem_settled hmem
    change τ ∈ hz.timepoints ↔ t.Puts p s b τ hz.name
    rw [hsplits.mem_timepoints_iff hmem', hassigned, Tables.mem_timepoints_iff]
    exact ⟨And.right, fun hputs => ⟨ha.isTimepoint hputs, hputs⟩⟩
  · intro hz hhead hd q hq
    cases hs with
    | nil => exact absurd hhead nofun
    | cons first rest =>
      cases hhead
      exact hlink first rfl hd ⟨q, _⟩ (by rw [hq]; rfl)

namespace Tables.ResolvesTimeline

variable {hz hz' : Horizon}

/-- A horizon of a timeline is declared. -/
theorem declared_mem (h : t.ResolvesTimeline p s b tl) (hmem : hz ∈ tl.horizons) :
    ⟨p, b, hz.name, hz.declared⟩ ∈ t.horizons := by
  have hpair : (hz.name, hz.declared) ∈ (t.horizonsOf p b).map fun row =>
      (row.horizon, row.boundary) := h.perm.mem_iff.1 (List.mem_map_of_mem hmem)
  obtain ⟨⟨_, _, name, boundary⟩, hrow, e⟩ := List.mem_map.1 hpair
  obtain ⟨hrow', rfl, rfl⟩ := mem_horizonsOf_iff.1 hrow
  cases e
  exact hrow'

/-- A declared horizon is on the timeline. -/
theorem exists_horizon (h : t.ResolvesTimeline p s b tl) {name : HorizonName}
    {boundary : Boundary} (hrow : ⟨p, b, name, boundary⟩ ∈ t.horizons) :
    ∃ hz ∈ tl.horizons, hz.name = name ∧ hz.declared = boundary := by
  have hpair : (name, boundary) ∈ tl.horizons.map fun hz => (hz.name, hz.declared) :=
    h.perm.mem_iff.2 (List.mem_map.2 ⟨_, mem_horizonsOf_iff.2 ⟨hrow, rfl, rfl⟩, rfl⟩)
  obtain ⟨hz, hmem, e⟩ := List.mem_map.1 hpair
  cases e
  exact ⟨hz, hmem, rfl, rfl⟩

theorem nodup_names (h : t.ResolvesTimeline p s b tl) (ht : t.WellDeclared) :
    (tl.horizons.map Horizon.name).Nodup := by
  have hnames := h.perm.map Prod.fst
  rw [List.map_map, List.map_map] at hnames
  exact hnames.nodup_iff.2 (nodup_horizonsOf ht.nodup_horizons)

/-- The timepoints of a horizon increase. -/
theorem increasing (h : t.ResolvesTimeline p s b tl) (ht : t.WellDeclared)
    (hmem : hz ∈ tl.horizons) : Increasing id hz.timepoints := by
  have hall := increasing_timepoints ht p s
  rw [← h.flatMap_timepoints, Increasing, List.pairwise_flatMap] at hall
  exact hall.1 hz hmem

/-- Horizons have different names, and the timepoints of a horizon come before those of the horizons
    after it. -/
theorem pairwise_horizons (h : t.ResolvesTimeline p s b tl) (ht : t.WellDeclared) :
    tl.horizons.Pairwise fun hz hz' =>
      hz.name ≠ hz'.name ∧ ∀ τ ∈ hz.timepoints, ∀ τ' ∈ hz'.timepoints, τ < τ' := by
  have hall := increasing_timepoints ht p s
  rw [← h.flatMap_timepoints, Increasing, List.pairwise_flatMap] at hall
  exact (List.pairwise_map.1 (h.nodup_names ht)).and hall.2

/-- The first horizon is the one with the first timepoint. -/
theorem mem_head?_iff (h : t.ResolvesTimeline p s b tl) (ht : t.WellDeclared)
    (hmem : hz ∈ tl.horizons) : hz ∈ tl.horizons.head? ↔
      ∃ τ ∈ hz.timepoints, ∀ τ', t.IsTimepoint p s τ' → τ ≤ τ' := by
  simp only [Temporal.mem_head?_iff (increasing_timepoints ht p s) h.flatMap_timepoints h.ne_nil
    hmem, Tables.mem_timepoints_iff]

end Tables.ResolvesTimeline

/-! ## Stages -/

theorem resolvesStage_of_ok (ht : t.WellDeclared) (ha : t.WellAssigned)
    (hrows : t.membership place = .ok rows) {s : Nat × String}
    (hok : (resolveStage place' t rows (t.previous? p) p s).outcome = .ok stage) :
    (stage.id, stage.name) = s ∧ t.ResolvesStage p stage := by
  obtain ⟨hne, hindices, tls, htls, rfl⟩ := resolveStage_ok_iff.1 hok
  exact ⟨rfl, rfl, hne, htls.imp fun _ _ htl => resolvesTimeline_of_ok ht ha hrows htl, hindices,
    rfl, rfl⟩

namespace Tables.ResolvesStage

/-- A stage has a timeline for each balancing type. -/
theorem balancingTypes_eq (h : t.ResolvesStage p stage) :
    stage.balancingTypes = t.balancingTypes := by
  have hmap := map_eq_map_of_forall₂ (f := id) (g := Timeline.balancingType) h.timelines
    fun _ _ htl => htl.balancingType.symm
  rw [Stage.balancingTypes, ← hmap, List.map_id]

theorem timeline?_eq_some_iff (h : t.ResolvesStage p stage) :
    stage.timeline? b = some tl ↔ tl ∈ stage.timelines ∧ tl.balancingType = b := by
  refine find?_key_eq_some_iff ?_
  change stage.balancingTypes.Nodup
  rw [h.balancingTypes_eq]
  exact nodup_balancingTypes

theorem resolvesTimeline_of_mem (h : t.ResolvesStage p stage) (hmem : tl ∈ stage.timelines) :
    t.ResolvesTimeline p stage.id tl.balancingType tl := by
  obtain ⟨b, -, hb⟩ := exists_of_mem_forall₂ h.timelines hmem
  rwa [hb.balancingType]

theorem resolvesTimeline (h : t.ResolvesStage p stage) (htl : stage.timeline? b = some tl) :
    t.ResolvesTimeline p stage.id b tl := by
  obtain ⟨hmem, rfl⟩ := h.timeline?_eq_some_iff.1 htl
  exact h.resolvesTimeline_of_mem hmem

theorem exists_timeline (h : t.ResolvesStage p stage) (hb : t.IsBalancingType b) :
    ∃ tl, stage.timeline? b = some tl := by
  rw [← mem_balancingTypes_iff, ← h.balancingTypes_eq] at hb
  obtain ⟨tl, hmem, hb⟩ := List.mem_map.1 hb
  exact ⟨tl, h.timeline?_eq_some_iff.2 ⟨hmem, hb⟩⟩

/-- A horizon of a stage is one of another stage, with the same timepoints, if and only if both put
    the same timepoints into it. -/
theorem find?_horizon_iff {first : Stage} (ht : t.WellDeclared) (hfirst : t.ResolvesStage p first)
    (h : t.ResolvesStage p stage) (hmem : tl ∈ first.timelines) {hz : Horizon}
    (hhz : hz ∈ tl.horizons) :
    (((stage.timeline? tl.balancingType).elim [] Timeline.horizons).find?
        (·.name == hz.name)).map Horizon.timepoints = some hz.timepoints ↔
      ∀ τ, t.Puts p first.id tl.balancingType τ hz.name ↔
        t.Puts p stage.id tl.balancingType τ hz.name := by
  have hres := hfirst.resolvesTimeline_of_mem hmem
  have hrow := hres.declared_mem hhz
  obtain ⟨tl', htl'⟩ := h.exists_timeline ⟨_, hrow, rfl⟩
  have hres' := h.resolvesTimeline htl'
  obtain ⟨hz', hhz', hname', -⟩ := hres'.exists_horizon hrow
  rw [htl', Option.elim, (find?_key_eq_some_iff (hres'.nodup_names ht)).2 ⟨hhz', hname'⟩,
    Option.map_some, Option.some.injEq]
  constructor
  · intro e τ
    rw [← hres.mem_timepoints_iff hz hhz, ← e, hres'.mem_timepoints_iff hz' hhz', hname']
  · intro hputs
    refine (hres'.increasing ht hhz').ext (hres.increasing ht hhz) fun τ => ?_
    rw [hres'.mem_timepoints_iff hz' hhz', hres.mem_timepoints_iff hz hhz, hputs, hname']

/-- Timepoints are put into the same horizons by the stages which have the same ones. -/
theorem sameHorizons_iff {first : Stage} (ht : t.WellDeclared) (ha : t.WellAssigned)
    (hfirst : t.ResolvesStage p first) (h : t.ResolvesStage p stage) :
    first.SameHorizons stage ↔ ∀ b τ h, t.Puts p first.id b τ h ↔ t.Puts p stage.id b τ h := by
  constructor
  · intro hsame b τ name
    -- Both sides put timepoints into declared horizons only, and those are on both timelines.
    suffices key : t.IsHorizon p b name →
        (t.Puts p first.id b τ name ↔ t.Puts p stage.id b τ name) from
      ⟨fun hputs => (key (ha.isHorizon hputs)).1 hputs,
        fun hputs => (key (ha.isHorizon hputs)).2 hputs⟩
    rintro ⟨⟨_, _, _, boundary⟩, hrow, rfl, rfl, rfl⟩
    obtain ⟨tl, hfind⟩ := hfirst.exists_timeline ⟨_, hrow, rfl⟩
    obtain ⟨htl, rfl⟩ := hfirst.timeline?_eq_some_iff.1 hfind
    obtain ⟨hz, hhz, rfl, -⟩ := (hfirst.resolvesTimeline_of_mem htl).exists_horizon hrow
    exact (hfirst.find?_horizon_iff ht h htl hhz).1 (hsame tl htl hz hhz) τ
  · intro hputs tl hmem hz hhz
    exact (hfirst.find?_horizon_iff ht h hmem hhz).2 fun τ => hputs _ τ _

end Tables.ResolvesStage

/-! ## Hierarchies -/

theorem resolves_of_ok {fragment : Nat} (hok : (resolve fragment t).outcome = .ok H) :
    t.Resolves H := by
  obtain ⟨ht, rows, subs, hrows, hsubs, rfl⟩ := resolve_ok_iff.1 hok
  have ha := (Tables.membership_ok_iff ht).1 ⟨rows, hrows⟩
  refine ⟨ht, ha, hsubs.imp fun p sub hsub => ?_⟩
  obtain ⟨hid, hstages, -⟩ := resolveSubproblem_ok_iff.1 hsub
  exact ⟨hid, hstages.imp fun _ _ hstage => resolvesStage_of_ok ht ha hrows hstage⟩

namespace Tables.Resolves

/-- Every stage of the hierarchy is one of the tables. -/
theorem of_mem_stages (h : t.Resolves H) (hmem : (p, stage) ∈ H.stages) :
    t.IsStage p stage.id ∧ t.ResolvesStage p stage := by
  obtain ⟨sub, hsub, hmem⟩ := List.mem_flatMap.1 hmem
  obtain ⟨stage, hstage, e⟩ := List.mem_map.1 hmem
  cases e
  obtain ⟨p, hp, rfl, hstages⟩ := exists_of_mem_forall₂ h.subproblems hsub
  obtain ⟨s, hs, rfl, hres⟩ := exists_of_mem_forall₂ hstages hstage
  exact ⟨isStage_iff.2 ⟨mem_subproblemsInOrder.1 hp, _, hs⟩, hres⟩

/-- Every stage of the tables is one of the hierarchy. -/
theorem exists_stage (h : t.Resolves H) (hs : t.IsStage p s) :
    ∃ stage, (p, stage) ∈ H.stages ∧ stage.id = s := by
  obtain ⟨hp, name, hmem⟩ := isStage_iff.1 hs
  obtain ⟨sub, hsub, rfl, hstages⟩ :=
    exists_of_mem_forall₂ h.subproblems.flip (mem_subproblemsInOrder.2 hp)
  obtain ⟨stage, hstage, e, -⟩ := exists_of_mem_forall₂ hstages.flip hmem
  exact ⟨stage, List.mem_flatMap.2 ⟨sub, hsub, List.mem_map_of_mem hstage⟩, congrArg Prod.fst e⟩

/-- The subproblems are in order. -/
theorem increasing_subproblems (h : t.Resolves H) : Increasing Subproblem.id H.subproblems := by
  have hmap := map_eq_map_of_forall₂ (f := id) (g := Subproblem.id) h.subproblems
    fun _ _ hsub => hsub.1.symm
  exact (increasing_subproblemsInOrder h.declared.nodup_subproblems).of_map_eq hmap

/-- The stages of a subproblem are in order. -/
theorem increasing_stages (h : t.Resolves H) {sub : Subproblem} (hsub : sub ∈ H.subproblems) :
    Increasing Stage.id sub.stages := by
  obtain ⟨p, -, -, hstages⟩ := exists_of_mem_forall₂ h.subproblems hsub
  have hmap := map_eq_map_of_forall₂ (f := Prod.fst) (g := Stage.id) hstages
    fun _ _ hstage => congrArg Prod.fst hstage.1.symm
  exact (increasing_stagesOf h.declared.nodup_stages).of_map_eq hmap

theorem nodup_subproblems (h : t.Resolves H) : (H.subproblems.map Subproblem.id).Nodup :=
  h.increasing_subproblems.nodup_map

theorem nodup_stages (h : t.Resolves H) {sub : Subproblem} (hsub : sub ∈ H.subproblems) :
    (sub.stages.map Stage.id).Nodup :=
  (h.increasing_stages hsub).nodup_map

/-- The stages of all subproblems are in order, those of a subproblem following each other. -/
theorem pairwise_stages (h : t.Resolves H) :
    H.stages.Pairwise fun a b => a.1 < b.1 ∨ a.1 = b.1 ∧ a.2.id < b.2.id := by
  rw [Hierarchy.stages, List.pairwise_flatMap]
  refine ⟨fun sub hsub => List.pairwise_map.2 ?_, ?_⟩
  · exact (h.increasing_stages hsub).imp fun hlt => .inr ⟨rfl, hlt⟩
  · refine h.increasing_subproblems.imp fun hlt a ha b hb => ?_
    obtain ⟨_, -, rfl⟩ := List.mem_map.1 ha
    obtain ⟨_, -, rfl⟩ := List.mem_map.1 hb
    exact .inl hlt

/-- A stage is found under its subproblem and its number. -/
theorem stage?_eq_some_iff (h : t.Resolves H) :
    H.stage? p s = some stage ↔ (p, stage) ∈ H.stages ∧ stage.id = s := by
  simp only [Hierarchy.stage?, Hierarchy.stages, Option.bind_eq_some_iff, List.mem_flatMap,
    find?_key_eq_some_iff h.nodup_subproblems, List.mem_map, Prod.mk.injEq]
  constructor
  · rintro ⟨sub, ⟨hsub, rfl⟩, hfind⟩
    obtain ⟨hstage, hid⟩ := (find?_key_eq_some_iff (h.nodup_stages hsub)).1 hfind
    exact ⟨⟨sub, hsub, stage, hstage, rfl, rfl⟩, hid⟩
  · rintro ⟨⟨sub, hsub, _, hstage, rfl, rfl⟩, hid⟩
    exact ⟨sub, ⟨hsub, rfl⟩, (find?_key_eq_some_iff (h.nodup_stages hsub)).2 ⟨hstage, hid⟩⟩

end Tables.Resolves

end CapacityExpansion.Temporal
