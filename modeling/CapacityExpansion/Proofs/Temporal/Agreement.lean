import CapacityExpansion.Proofs.Temporal.Acceptance

/-!
# What a subproblem depends on

To resolve a subproblem only a part of the tables is looked at: its own stages,
timepoints and horizons, the horizons into which its timepoints are put, and the
timepoints carried over from the subproblem before it. Tables which *agree* on
these are both well formed there or neither is, and resolve it in the same way.

The balancing types come from all subproblems, in the order in which they are
first named. They are the one thing for which the rest of the tables matters, and
with their order that of the timelines of a stage.

* `Stage.Rearranges`, `Hierarchy.Rearranges`: the same but for this order;
* `Tables.AgreeOn`: tables which say the same of a subproblem;
* `Tables.AgreeOn.wellStaged`: its stages are well formed in both;
* `resolveSubproblem_rearranges_of_agreeOn`: what it is resolved to.
-/

namespace CapacityExpansion.Temporal

/-- The stages differ at most in the order of their timelines. -/
def Stage.Rearranges (stage stage' : Stage) : Prop :=
  stage.timelines.Perm stage'.timelines ∧ { stage with timelines := stage'.timelines } = stage'

/-- The hierarchies differ at most in the order of the timelines of their stages. -/
def Hierarchy.Rearranges (H H' : Hierarchy) : Prop :=
  H.fragment = H'.fragment ∧ H.periods = H'.periods ∧
    List.Forall₂ (fun sub sub' => sub.id = sub'.id ∧
      List.Forall₂ Stage.Rearranges sub.stages sub'.stages) H.subproblems H'.subproblems

namespace Tables

/-- The tables say the same of the subproblem `p`, but for the order of its horizon rows. -/
structure AgreeOn (t t' : Tables) (p : Nat) : Prop where
  stagesOf_eq : t.stagesOf p = t'.stagesOf p
  timepointsOf_eq : ∀ s, t.timepointsOf p s = t'.timepointsOf p s
  /-- The subproblem before it is the same, and carries the same timepoints over. -/
  sourceOf_eq : ∀ s, t.sourceOf (t.previous? p) s = t'.sourceOf (t'.previous? p) s
  horizonsOf_perm : ∀ b, (t.horizonsOf p b).Perm (t'.horizonsOf p b)
  puts_iff : ∀ s b τ h, t.Puts p s b τ h ↔ t'.Puts p s b τ h

variable {t t' : Tables} {p s τ : Nat} {b : BalancingType} {hz : HorizonName}

/-! ## Well-formed stages -/

namespace AgreeOn

variable (h : t.AgreeOn t' p)
include h

theorem symm : t'.AgreeOn t p :=
  ⟨h.stagesOf_eq.symm, fun s => (h.timepointsOf_eq s).symm, fun s => (h.sourceOf_eq s).symm,
    fun b => (h.horizonsOf_perm b).symm, fun s b τ hz => (h.puts_iff s b τ hz).symm⟩

theorem isTimepoint_iff : t.IsTimepoint p s τ ↔ t'.IsTimepoint p s τ := by
  rw [Tables.isTimepoint_iff, Tables.isTimepoint_iff, h.timepointsOf_eq]

theorem isHorizon_iff : t.IsHorizon p b hz ↔ t'.IsHorizon p b hz := by
  rw [Tables.isHorizon_iff, Tables.isHorizon_iff]
  exact ((h.horizonsOf_perm b).map _).mem_iff

theorem mem_horizons_iff {boundary : Boundary} :
    ⟨p, b, hz, boundary⟩ ∈ t.horizons ↔ ⟨p, b, hz, boundary⟩ ∈ t'.horizons := by
  have hrow : (⟨p, b, hz, boundary⟩ : HorizonRow) ∈ t.horizonsOf p b ↔ _ :=
    (h.horizonsOf_perm b).mem_iff
  rwa [mem_horizonsOf_iff, mem_horizonsOf_iff, and_iff_left ⟨rfl, rfl⟩,
    and_iff_left ⟨rfl, rfl⟩] at hrow

section Declared

variable (ht : t.WellDeclared) (ht' : t'.WellDeclared)
include ht ht'

/-- The subproblem before the one on which the tables agree is the same, and carries timepoints over
    to a stage in both or in neither. -/
theorem isPrevious (s : Nat) {q : Nat} (hq : t'.IsPrevious q p) :
    t.IsPrevious q p ∧ (t.indicesOf q s = [] ↔ t'.indicesOf q s = []) := by
  have hsource := h.sourceOf_eq s
  rw [(previous?_eq_some_iff ht'.nodup_subproblems).2 hq, sourceOf, sourceOf] at hsource
  obtain ⟨q', hq', e⟩ := Option.map_eq_some_iff.1 hsource
  obtain ⟨rfl, hcarried⟩ := Source.mk.inj e
  refine ⟨(previous?_eq_some_iff ht.nodup_subproblems).1 hq', ?_⟩
  rw [indicesOf, indicesOf, ← carriedOver_eq_nil_iff, ← carriedOver_eq_nil_iff, hcarried]

theorem wellSplit (hsplit : t.WellSplit p s b) : t'.WellSplit p s b where
  covered := by simpa only [h.isTimepoint_iff, h.puts_iff] using hsplit.covered
  nonempty := by simpa only [h.isHorizon_iff, h.puts_iff] using hsplit.nonempty
  contiguous := by simpa only [h.isTimepoint_iff, h.puts_iff] using hsplit.contiguous
  linkable hz τ q hputs hle hrow hq := by
    simp only [← h.isTimepoint_iff] at hle
    rw [← h.puts_iff] at hputs
    rw [← h.mem_horizons_iff] at hrow
    obtain ⟨hq, hindices⟩ := h.isPrevious ht ht' s hq
    rw [Ne, ← hindices]
    exact hsplit.linkable hz τ q hputs hle hrow hq

/-- A stage which is well formed in one of the tables is so in the other, if the other have no
    further balancing types. -/
theorem wellStaged (htypes : ∀ b, t'.IsBalancingType b → t.IsBalancingType b)
    (hstaged : t.WellStaged p s) : t'.WellStaged p s where
  exists_timepoint := by simpa only [h.isTimepoint_iff] using hstaged.exists_timepoint
  split b hb := h.wellSplit ht ht' (hstaged.split b (htypes b hb))
  indices := by
    rw [indicesOf, ← h.timepointsOf_eq]
    exact hstaged.indices

end Declared

end AgreeOn

end Tables

open Tables

/-! ## Resolving -/

section Agreement

variable {t t' : Tables} {place place' : Location} {rows rows' : List MemberRow} {p : Nat}
  (h : t.AgreeOn t' p) (ht : t.WellDeclared) (ha : t.WellAssigned) (ht' : t'.WellDeclared)
  (ha' : t'.WellAssigned) (hrows : t.membership place = .ok rows)
  (hrows' : t'.membership place = .ok rows')
include h ht ha ht' ha' hrows hrows'

/-- The timelines of a stage are the same. -/
theorem resolveTimeline_eq_of_agreeOn {s : Nat} {b : BalancingType} {tl tl' : Timeline}
    (hok : (resolveTimeline place' t rows (t.sourceOf (t.previous? p) s) p s (t.timepointsOf p s)
      b).outcome = .ok tl)
    (hok' : (resolveTimeline place' t' rows' (t'.sourceOf (t'.previous? p) s) p s
      (t'.timepointsOf p s) b).outcome = .ok tl') : tl = tl' := by
  obtain ⟨hs, hordered, -, rfl⟩ := resolveTimeline_ok_iff.1 hok
  obtain ⟨hs', hordered', -, rfl⟩ := resolveTimeline_ok_iff.1 hok'
  have hassigned : horizonAmong rows p s b = horizonAmong rows' p s b := by
    funext τ
    refine Option.ext fun hz => ?_
    rw [horizonAmong_eq_some_iff ht hrows, horizonAmong_eq_some_iff ht' hrows', h.puts_iff]
  have hsplits := splits_of_ok ht ha hrows hordered
  have hsplits' := splits_of_ok ht' ha' hrows' hordered'
  rw [← h.timepointsOf_eq, ← hassigned] at hsplits'
  rw [h.sourceOf_eq, hsplits.eq_of_perm hsplits' (increasing_timepointsOf ht.nodup_timepoints)
    (h.horizonsOf_perm b)]

/-- A stage is the same but for the order of its timelines, which is that of the balancing types. -/
theorem resolveStage_rearranges_of_agreeOn (htypes : t.balancingTypes.Perm t'.balancingTypes)
    {s : Nat × String} {stage stage' : Stage}
    (hok : (resolveStage place' t rows (t.previous? p) p s).outcome = .ok stage)
    (hok' : (resolveStage place' t' rows' (t'.previous? p) p s).outcome = .ok stage') :
    stage.Rearranges stage' ∧ (t.balancingTypes = t'.balancingTypes → stage = stage') := by
  obtain ⟨-, -, tls, htls, rfl⟩ := resolveStage_ok_iff.1 hok
  obtain ⟨-, -, tls', htls', rfl⟩ := resolveStage_ok_iff.1 hok'
  have hperm : tls.Perm tls' := by
    refine perm_of_forall₂ (fun b tl tl' hb hb' => ?_) htypes htls htls'
    exact resolveTimeline_eq_of_agreeOn h ht ha ht' ha' hrows hrows' hb hb'
  have hlinked : anyLinked tls = anyLinked tls' := hperm.any_eq
  refine ⟨⟨hperm, ?_⟩, fun e => ?_⟩
  · simp only [stageOf, hlinked, h.timepointsOf_eq, h.sourceOf_eq]
  · rw [← e] at htls'
    have htimelines : tls = tls' := by
      refine eq_of_forall₂ (fun b tl tl' hb hb' => ?_) htls htls'
      exact resolveTimeline_eq_of_agreeOn h ht ha ht' ha' hrows hrows' hb hb'
    simp only [stageOf, htimelines, h.timepointsOf_eq, h.sourceOf_eq]

/-- The subproblem has the same stages, each but for the order of its timelines. -/
theorem resolveSubproblem_rearranges_of_agreeOn
    (htypes : t.balancingTypes.Perm t'.balancingTypes) {sub sub' : Subproblem}
    (hok : (resolveSubproblem place' t rows (t.previous? p) p).outcome = .ok sub)
    (hok' : (resolveSubproblem place' t' rows' (t'.previous? p) p).outcome = .ok sub') :
    sub.id = sub'.id ∧ List.Forall₂ (fun stage stage' => stage.Rearranges stage' ∧
      (t.balancingTypes = t'.balancingTypes → stage = stage')) sub.stages sub'.stages := by
  obtain ⟨hid, hstages, -⟩ := resolveSubproblem_ok_iff.1 hok
  obtain ⟨hid', hstages', -⟩ := resolveSubproblem_ok_iff.1 hok'
  rw [← h.stagesOf_eq] at hstages'
  refine ⟨hid.trans hid'.symm, ?_⟩
  refine forall₂_of_forall₂ (fun s stage stage' hs hs' => ?_) hstages hstages'
  exact resolveStage_rearranges_of_agreeOn h ht ha ht' ha' hrows hrows' htypes hs hs'

end Agreement

end CapacityExpansion.Temporal
