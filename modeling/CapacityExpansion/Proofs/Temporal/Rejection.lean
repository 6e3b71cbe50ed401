import CapacityExpansion.Proofs.Data.Failure
import CapacityExpansion.Proofs.Temporal.Acceptance
import CapacityExpansion.Proofs.Temporal.Defects

/-!
# What resolving rejects

The fault with which resolving stops is one which the tables have, at the place
which it names. Each check is followed down to the row or the stage it is about;
what the checks before it have found out tells what a fault means. So the rows
collected are known to put timepoints where the tables put them before any stage
is looked at, and the stages of a subproblem to be resolved before they are
compared.

* `Tables.failsWith_checkDeclarations`, `Tables.failsWith_membership`: faults of
  the declarations and of the rows in use;
* `failsWith_resolveTimeline`, `failsWith_resolveStage`,
  `failsWith_resolveSubproblem`: faults of a timeline, a stage and a subproblem;
* `resolve_truthful`: the fault of resolving.
-/

namespace CapacityExpansion.Temporal

namespace Tables

variable {t : Tables} {place : Location} {p s τ : Nat} {b : BalancingType} {h : HorizonName}

/-! ## Declarations -/

theorem failsWith_checkPeriods :
    FailsWith (t.HasFault place) (checkInOrder (checkPeriod place) [] t.periods) := by
  refine .checkInOrder Period.id fun earlier row hrow hdup => ?_
  refine .require_bind (fun hpos => .invalidPeriodValue hrow rfl (isPositive_iff.not.1 hpos))
    fun _ => ?_
  refine .require_bind (fun hpos => .invalidPeriodValue hrow rfl (isPositive_iff.not.1 hpos))
    fun _ => ?_
  exact .require fun hkey => .duplicatePeriod (hdup (not_not.1 hkey))

theorem failsWith_checkSubproblems :
    FailsWith (t.HasFault place) (checkInOrder (checkSubproblem place) [] t.subproblems) := by
  refine .checkInOrder id fun earlier p _ hdup => .require fun hkey => .duplicateSubproblem ?_
  rw [List.map_id, List.map_id] at hdup
  exact hdup (not_not.1 hkey)

theorem failsWith_checkStages :
    FailsWith (t.HasFault place) (checkInOrder (t.checkStage place) [] t.stages) := by
  refine .checkInOrder (fun row => (row.subproblem, row.stage)) fun earlier row hrow hdup => ?_
  exact .require_bind (fun hp => .undeclaredSubproblem (.stage hrow rfl) hp) fun _ =>
    .require fun hkey => .duplicateStage (hdup (not_not.1 hkey))

theorem failsWith_checkTimepoints :
    FailsWith (t.HasFault place) (checkInOrder (t.checkTimepoint place) [] t.timepoints) := by
  refine .checkInOrder (fun row => (row.subproblem, row.stage, row.timepoint.id))
    fun earlier row hrow hdup => ?_
  refine .require_bind (fun hp => .undeclaredSubproblem (.timepoint hrow rfl) hp) fun hp => ?_
  refine .require_bind (fun hs => .undeclaredStage hrow hp ((hasStage_iff hp).not.1 hs))
    fun _ => ?_
  refine .require_bind (fun hzero => ?_) fun _ => ?_
  · rw [not_not.1 hzero]
    exact .nonPositiveTimepoint ⟨row, hrow, rfl, rfl, not_not.1 hzero⟩
  refine .require_bind (fun hperiod => .undeclaredPeriod hrow hperiod) fun _ => ?_
  refine .require_bind (fun hpos => .invalidTimepointValue hrow rfl (isPositive_iff.not.1 hpos))
    fun _ => ?_
  refine .require_bind (fun hpos => .invalidTimepointValue hrow rfl (isPositive_iff.not.1 hpos))
    fun _ => ?_
  exact .require fun hkey => .duplicateTimepoint (hdup (not_not.1 hkey))

theorem failsWith_checkHorizons :
    FailsWith (t.HasFault place) (checkInOrder (t.checkHorizon place) [] t.horizons) := by
  refine .checkInOrder (fun row => (row.subproblem, row.balancingType, row.horizon))
    fun earlier row hrow hdup => ?_
  exact .require_bind (fun hp => .undeclaredSubproblem (.horizon hrow rfl) hp) fun _ =>
    .require fun hkey => .duplicateHorizon (hdup (not_not.1 hkey))

/-- The declarations have the defect for which they are rejected. -/
theorem failsWith_checkDeclarations :
    FailsWith (t.HasFault place) (t.checkDeclarations place) :=
  .require_bind (fun hnil => .noPeriods (not_not.1 hnil)) fun _ =>
    .bind failsWith_checkPeriods fun _ _ =>
    .require_bind (fun hnil => .noSubproblems (not_not.1 hnil)) fun _ =>
    .bind failsWith_checkSubproblems fun _ _ => .bind failsWith_checkStages fun _ _ =>
    .bind failsWith_checkTimepoints fun _ _ => failsWith_checkHorizons

/-! ## The rows in use -/

theorem failsWith_checkStageOf (hτ : t.Names p s b h τ) :
    FailsWith (t.HasFault place) (t.checkStageOf (place.atHorizon p s b h) p s) :=
  .require_bind (fun hp => .unassignableSubproblem hτ hp) fun hp =>
    .require fun hs => .unassignableStage hτ hp ((hasStage_iff hp).not.1 hs)

theorem failsWith_rowsOfMember (hnil : t.spans = []) {row : MemberRow} (hrow : row ∈ t.members) :
    FailsWith (t.HasFault place) (t.rowsOfMember place row) :=
  .bind (failsWith_checkStageOf (.member hnil hrow)) fun _ _ =>
    .require_bind (fun hτ => .unknownTimepoint (.member hnil hrow) (mem_timepoints_iff.not.1 hτ))
      fun _ => .ok _

theorem failsWith_positionOf (hτ : t.Names p s b h τ) :
    FailsWith (t.HasFault place) (positionOf (place.atHorizon p s b h)
      ((t.timepointsOf p s).map Timepoint.id) τ) := by
  unfold positionOf
  split
  · exact .ok _
  · next hnot => exact .error (.unknownTimepoint hτ (mem_timepoints_iff.not.1 hnot))

theorem failsWith_rowsOfSpan (ht : t.WellDeclared) {row : SpanRow} (hrow : row ∈ t.spans) :
    FailsWith (t.HasFault place) (t.rowsOfSpan place row) := by
  refine .bind (failsWith_checkStageOf (.first hrow)) fun _ _ =>
    .bind (failsWith_positionOf (.first hrow)) fun _ hi =>
    .bind (failsWith_positionOf (.last hrow)) fun _ hj =>
    .require_bind (fun hlt => .startAfterEnd hrow ?_) fun _ => .ok _
  -- The positions of the ends are in the order of the ends.
  obtain ⟨hfirst, rfl⟩ := positionOf_ok_iff.1 hi
  obtain ⟨hlast, rfl⟩ := positionOf_ok_iff.1 hj
  rw [idxOf_le_idxOf_iff (increasing_timepoints ht _ _) hfirst hlast] at hlt
  exact Nat.lt_of_not_le hlt

/-- Rows which put timepoints where the tables put them. -/
def Sound (t : Tables) (rows : List MemberRow) : Prop :=
  ∀ row ∈ rows, t.Puts row.subproblem row.stage row.balancingType row.timepoint row.horizon

theorem Sound.concat {rows : List MemberRow} {row : MemberRow} (hrows : t.Sound rows)
    (hrow : t.Puts row.subproblem row.stage row.balancingType row.timepoint row.horizon) :
    t.Sound (rows ++ [row]) :=
  List.forall_mem_append.2 ⟨hrows, List.forall_mem_singleton.2 hrow⟩

theorem failsWith_addMember {rows : List MemberRow} {row : MemberRow} (hrows : t.Sound rows)
    (hrow : t.Puts row.subproblem row.stage row.balancingType row.timepoint row.horizon) :
    FailsWith (t.HasFault place) (t.addMember place rows row) := by
  refine .bind (.require_bind (fun hh => .undeclaredHorizon hrow (hasHorizon_iff.not.1 hh))
    fun _ => ?_) fun _ _ => .ok _
  split
  · exact .ok ()
  · next first hfirst =>
    exact .require fun hne =>
      .duplicateHorizonMembership (hrows _ (mem_of_horizonAmong hfirst)) hrow hne

theorem sound_of_addMember {rows rows' : List MemberRow} {row : MemberRow} (hrows : t.Sound rows)
    (hrow : t.Puts row.subproblem row.stage row.balancingType row.timepoint row.horizon)
    (hok : t.addMember place rows row = .ok rows') : t.Sound rows' := by
  rw [addMember, seq_ok_iff, pure_ok_iff] at hok
  rw [← hok.2]
  exact hrows.concat hrow

/-- Rows of either kind are rejected for what they stand for, or for themselves. -/
theorem failsWith_collectMembers {ρ : Type} {rowsOf : ρ → Except Fault (List MemberRow)}
    {rs : List ρ} (hfails : ∀ r ∈ rs, FailsWith (t.HasFault place) (rowsOf r))
    (hsound : ∀ r ∈ rs, ∀ rows, rowsOf r = .ok rows → t.Sound rows) :
    FailsWith (t.HasFault place) (t.collectMembers place rowsOf rs) := by
  refine .foldlM t.Sound (fun soFar hsoFar r hr all hok => ?_) (fun soFar hsoFar r hr => ?_)
    fun _ hmem => absurd hmem List.not_mem_nil
  · obtain ⟨rows, hrows, hok⟩ := bind_ok_iff.1 hok
    exact foldlM_invariant t.Sound (fun _ hbefore row hrow _ hadd =>
      sound_of_addMember hbefore (hsound r hr rows hrows row hrow) hadd) hsoFar hok
  · refine .bind (hfails r hr) fun rows hrows => ?_
    exact .foldlM t.Sound (fun _ hbefore row hrow _ hadd =>
        sound_of_addMember hbefore (hsound r hr rows hrows row hrow) hadd)
      (fun _ hbefore row hrow => failsWith_addMember hbefore (hsound r hr rows hrows row hrow))
      hsoFar

/-- The rows in use have the defect for which they are rejected. -/
theorem failsWith_membership (ht : t.WellDeclared) :
    FailsWith (t.HasFault place) (t.membership place) := by
  unfold membership
  split
  · next hnil =>
    refine failsWith_collectMembers (fun row hrow => failsWith_rowsOfMember hnil hrow)
      fun row hrow rows hok => ?_
    obtain ⟨-, rfl⟩ := rowsOfMember_ok_iff.1 hok
    exact List.forall_mem_singleton.2 (.directly hnil hrow)
  · refine failsWith_collectMembers (fun row hrow => failsWith_rowsOfSpan ht hrow)
      fun row hrow rows hok => ?_
    obtain ⟨hfits, rfl⟩ := (rowsOfSpan_ok_iff ht).1 hok
    rintro ⟨p, s, τ, b, h⟩ hmem
    obtain ⟨e, hτ, hfirst, hlast⟩ := (mem_expansion_iff ht hfits).1 hmem
    exact .bySpan (e ▸ hrow) hτ hfirst hlast

end Tables

/-! ## Timelines -/

open Resolving (appends_lift appends_pure outcome_bind outcome_lift outcome_mapM outcome_forM)
open Tables

variable {P : Fault → Prop} {place place' : Location} {t : Tables} {rows : List MemberRow}
  {p s : Nat} {b : BalancingType}

theorem failsWith_outcome_bind {α β : Type} {x : Resolving α} {f : α → Resolving β}
    (happends : ∀ a, (f a).Appends) (hx : FailsWith P x.outcome)
    (hf : ∀ a, x.outcome = .ok a → FailsWith P (f a).outcome) :
    FailsWith P (x >>= f).outcome := by
  rw [outcome_bind happends]
  exact .bind hx hf

theorem failsWith_effectiveBoundary {source : Option Source} {isFirst : Bool} {declared : Boundary}
    (h : isFirst → declared = .linked → ∀ src ∈ source, src.linked = [] →
      P ⟨place, .missingLinkedTimepoints src.subproblem⟩) :
    FailsWith P (effectiveBoundary place source isFirst declared).outcome := by
  have hlinear : ∀ demotion, FailsWith P (do report demotion; return Boundary.linear).outcome :=
    fun _ => failsWith_outcome_bind (fun _ => appends_pure _) (.ok _) fun _ _ => .ok _
  unfold effectiveBoundary
  split_ifs with hd hfirst
  · exact .ok _
  · exact hlinear _
  · cases source with
    | none => exact hlinear _
    | some src =>
      dsimp only
      split_ifs with hnil
      · exact .error (h (by simpa using hfirst) (not_not.1 hd) src rfl (List.isEmpty_iff.1 hnil))
      · exact .ok _

/-- Only the boundary of the first horizon can be rejected. -/
theorem failsWith_settleBoundaries {source : Option Source} {isFirst : Bool} {hs : List Horizon}
    (h : isFirst → ∀ hz ∈ hs.head?, hz.declared = .linked → ∀ src ∈ source, src.linked = [] →
      P ⟨place.inHorizon b hz.name, .missingLinkedTimepoints src.subproblem⟩) :
    FailsWith P (settleBoundaries place b source isFirst hs).outcome := by
  induction hs generalizing isFirst with
  | nil => exact .ok _
  | cons hz rest ih =>
    refine failsWith_outcome_bind
      (fun _ => appends_settleBoundaries.bind fun _ => appends_pure _)
      (failsWith_effectiveBoundary fun hfirst => h hfirst hz rfl) fun _ _ => ?_
    exact failsWith_outcome_bind (fun _ => appends_pure _) (ih nofun) fun _ _ => .ok _

section Timelines

variable (ht : t.WellDeclared) (ha : t.WellAssigned) (hrows : t.membership place = .ok rows)
include ht hrows

theorem failsWith_placed (hb : t.IsBalancingType b) :
    FailsWith (t.HasFault place') (placed (place'.atStage p s) rows p s b (t.timepointsOf p s)) := by
  refine .mapM fun ⟨tp, i⟩ hmem => ?_
  dsimp only
  split
  · next hnone =>
    refine .error (.uncoveredTimepoint ?_ hb fun h hputs => ?_)
    · exact isTimepoint_iff.2 ⟨tp, List.fst_mem_of_mem_zipIdx hmem, rfl⟩
    · rw [← horizonAmong_eq_some_iff ht hrows, hnone] at hputs
      cases hputs
  · exact .ok _

include ha

/-- A horizon is rejected if no timepoint of the stage is put into it, or if some are, but not one
    between them. -/
theorem failsWith_horizonOf (hs : t.IsStage p s) {row : HorizonRow} (hrow : row ∈ t.horizonsOf p b)
    {ms : List (Nat × Timepoint × HorizonName)}
    (hms : Placed (horizonAmong rows p s b) (t.timepointsOf p s) ms) :
    FailsWith (t.HasFault place') (horizonOf (place'.atStage p s) ms row) := by
  obtain ⟨hrow', rfl, rfl⟩ := mem_horizonsOf_iff.1 hrow
  have hdeclared : t.IsHorizon row.subproblem row.balancingType row.horizon :=
    ⟨row, hrow', rfl, rfl, rfl⟩
  unfold horizonOf
  dsimp only
  split
  · next hnil =>
    refine .error (.emptyHorizon hs hdeclared fun τ hputs => ?_)
    refine (membersOf_ne_nil_iff ht ha hrows).2 ⟨τ, hputs⟩ ?_
    rw [hms.membersOf_eq, hnil, List.map_nil]
  · next hcons =>
    refine .require_bind (fun hgap => ?_) fun _ => .ok _
    rw [← hcons, hms.neighbours_filter_iff (increasing_timepointsOf ht.nodup_timepoints)] at hgap
    simp only [Contiguous, horizonAmong_eq_some_iff ht hrows] at hgap
    push Not at hgap
    obtain ⟨tp₁, -, tp, htp, tp₂, -, h₁, h₂, hle₁, hle₂, hnot⟩ := hgap
    -- The timepoint left out is none of the two it lies between.
    have hne₁ : tp₁.id ≠ tp.id := fun e => hnot (e ▸ h₁)
    have hne₂ : tp.id ≠ tp₂.id := fun e => hnot (e ▸ h₂)
    exact .nonContiguousHorizon hdeclared h₁ h₂ (isTimepoint_iff.2 ⟨tp, htp, rfl⟩)
      (Nat.lt_of_le_of_ne hle₁ hne₁) (Nat.lt_of_le_of_ne hle₂ hne₂) hnot

theorem failsWith_orderedHorizons (hs : t.IsStage p s) (hb : t.IsBalancingType b) :
    FailsWith (t.HasFault place') (orderedHorizons (place'.atStage p s) rows p s b
      (t.timepointsOf p s) (t.horizonsOf p b)) :=
  .bind (failsWith_placed ht hrows hb) fun _ hms =>
    .bind (.mapM fun _ hrow => failsWith_horizonOf ht ha hrows hs hrow (placed_ok hms))
      fun _ _ => .ok _

/-- A timeline is rejected for a defect which the tables have. -/
theorem failsWith_resolveTimeline (hs : t.IsStage p s) (hb : t.IsBalancingType b) :
    FailsWith (t.HasFault place') (resolveTimeline (place'.atStage p s) t rows
      (t.sourceOf (t.previous? p) s) p s (t.timepointsOf p s) b).outcome := by
  refine failsWith_outcome_bind
    (fun _ => appends_settleBoundaries.bind fun _ => appends_pure _)
    (failsWith_orderedHorizons ht ha hrows hs hb) fun hzs hordered => ?_
  refine failsWith_outcome_bind (fun _ => appends_pure _)
    (failsWith_settleBoundaries fun _ hz hhead hlinked src hsrc hnil => ?_) fun _ _ => .ok _
  obtain ⟨hrow, τ, hputs, hle⟩ := exists_first_of_mem_head? ht ha hrows hordered hhead
  rw [hlinked] at hrow
  obtain ⟨q, hq, rfl⟩ := Option.map_eq_some_iff.1 hsrc
  exact .missingLinkedTimepoints hs hrow hputs hle
    ((previous?_eq_some_iff ht.nodup_subproblems).1 hq) (carriedOver_eq_nil_iff.1 hnil)

/-! ## Stages and subproblems -/

omit ht ha hrows in
theorem failsWith_checkedCarriedOver (hs : t.IsStage p s) :
    FailsWith (t.HasFault place') (checkedCarriedOver (place'.atStage p s) (t.timepointsOf p s)) := by
  unfold checkedCarriedOver
  dsimp only
  split
  · next i indices rule hindices hrule =>
    have hne : t.indicesOf p s ≠ [] := by
      rw [indicesOf, hindices]
      exact List.cons_ne_nil _ _
    exact .error (.malformedLinkedTimepoints hs (isBroken_of_brokenRule? hne hrule))
  · exact .ok _

/-- A stage is rejected for a defect which the tables have. -/
theorem failsWith_resolveStage {s : Nat × String} (hs : t.IsStage p s.1) :
    FailsWith (t.HasFault place') (resolveStage place' t rows (t.previous? p) p s).outcome := by
  refine failsWith_outcome_bind (fun _ => (appends_lift _).bind fun _ =>
      (Resolving.Appends.mapM fun _ => appends_resolveTimeline).bind fun _ => appends_pure _)
    (.require fun hnil => .noTimepoints hs fun τ hτ => hnil (timepointsOf_ne_nil_iff.2 ⟨τ, hτ⟩))
    fun _ _ => ?_
  refine failsWith_outcome_bind (fun _ =>
      (Resolving.Appends.mapM fun _ => appends_resolveTimeline).bind fun _ => appends_pure _)
    (failsWith_checkedCarriedOver hs) fun _ _ => ?_
  refine failsWith_outcome_bind (fun _ => appends_pure _) ?_ fun _ _ => .ok _
  rw [outcome_mapM fun _ => appends_resolveTimeline]
  exact .mapM fun b hb => failsWith_resolveTimeline ht ha hrows hs (mem_balancingTypes_iff.1 hb)

omit ha hrows in
/-- A stage which is not like the first one of its subproblem differs from it in a timepoint of a
    horizon. -/
theorem failsWith_checkSameHorizons {first stage : Stage} (hfirst : t.ResolvesStage p first)
    (hstage : t.ResolvesStage p stage) (hleast : ∀ s', t.IsStage p s' → first.id ≤ s')
    (hs : t.IsStage p first.id) (hs' : t.IsStage p stage.id) (hne : stage.id ≠ first.id) :
    FailsWith (t.HasFault place')
      (checkSameHorizons (place'.atStage p stage.id) first stage) := by
  refine .forM fun tl htl => .forM fun hz hhz => .require fun hdiffers => ?_
  rw [hfirst.find?_horizon_iff ht hstage htl hhz, not_forall] at hdiffers
  obtain ⟨τ, hτ⟩ := hdiffers
  have hrow := (hfirst.resolvesTimeline_of_mem htl).declared_mem hhz
  exact .stageHorizonMismatch hs hleast hs' hne ⟨_, hrow, rfl, rfl, rfl⟩ hτ

/-- A subproblem is rejected for a defect which the tables have. -/
theorem failsWith_resolveSubproblem (hp : p ∈ t.subproblems) :
    FailsWith (t.HasFault place') (resolveSubproblem place' t rows (t.previous? p) p).outcome := by
  have hisStage : ∀ s ∈ t.stagesOf p, t.IsStage p s.1 := fun s hs => isStage_iff.2 ⟨hp, s.2, hs⟩
  refine failsWith_outcome_bind appends_compareStages ?_ fun stages hok => ?_
  · rw [outcome_mapM fun _ => appends_resolveStage]
    exact .mapM fun s hs => failsWith_resolveStage ht ha hrows (hisStage s hs)
  rw [outcome_mapM fun _ => appends_resolveStage, mapM_ok_iff] at hok
  have hstages := hok.imp fun _ _ hok => resolvesStage_of_ok ht ha hrows hok
  cases stages with
  | nil => exact .ok _
  | cons first rest =>
    -- The stages are in order, so the first one is the least and differs from the others.
    have hinc : Increasing Stage.id (first :: rest) := by
      have hmap := map_eq_map_of_forall₂ (f := Prod.fst) (g := Stage.id) hstages
        fun _ _ hstage => congrArg Prod.fst hstage.1.symm
      exact (increasing_stagesOf ht.nodup_stages).of_map_eq hmap
    have hleast : ∀ s', t.IsStage p s' → first.id ≤ s' := fun s' hs' => by
      obtain ⟨-, name, hmem⟩ := isStage_iff.1 hs'
      obtain ⟨stage, hstage, e, -⟩ := exists_of_mem_forall₂ hstages.flip hmem
      cases e
      exact (hinc.head?_eq_some_iff.1 rfl).2 stage hstage
    have hstage : ∀ stage ∈ first :: rest, t.IsStage p stage.id ∧ t.ResolvesStage p stage := by
      intro stage hmem
      obtain ⟨s, hs, rfl, hres⟩ := exists_of_mem_forall₂ hstages hmem
      exact ⟨hisStage _ hs, hres⟩
    refine failsWith_outcome_bind (fun _ => appends_pure _) ?_ fun _ _ => .ok _
    rw [outcome_forM fun _ => appends_lift _]
    refine .forM fun stage hmem => ?_
    obtain ⟨hs, hfirst⟩ := hstage first List.mem_cons_self
    obtain ⟨hs', hres⟩ := hstage stage (List.mem_cons_of_mem _ hmem)
    exact failsWith_checkSameHorizons ht hfirst hres hleast hs hs'
      (Nat.ne_of_gt ((List.pairwise_cons.1 hinc).1 stage hmem))

/-- Each subproblem is resolved after those before it. -/
theorem failsWith_resolveSubproblems {earlier later : List Nat}
    (e : t.subproblemsInOrder = earlier ++ later) :
    FailsWith (t.HasFault place')
      (resolveSubproblems place' t rows earlier.getLast? later).outcome := by
  induction later generalizing earlier with
  | nil => exact .ok _
  | cons p later ih =>
    have hp : p ∈ t.subproblems := mem_subproblemsInOrder.1 (by rw [e]; simp)
    have hrest := @ih (earlier ++ [p]) (by rw [e, List.append_cons])
    rw [List.getLast?_concat] at hrest
    rw [← previous?_of_append ht.nodup_subproblems e]
    refine failsWith_outcome_bind
      (fun _ => appends_resolveSubproblems.bind fun _ => appends_pure _)
      (failsWith_resolveSubproblem ht ha hrows hp) fun _ _ => ?_
    exact failsWith_outcome_bind (fun _ => appends_pure _) hrest fun _ _ => .ok _

end Timelines

/-! ## The hierarchy -/

/-- Tables which are rejected have the defect for which they are, at the place which is named. -/
theorem resolve_truthful {fragment : Nat} {fault : Fault}
    (hfault : (resolve fragment t).outcome = .error fault) :
    fault.location.fragment = fragment ∧ t.HasFault (.ofFragment fragment) fault := by
  have hfails : FailsWith (t.HasFault (.ofFragment fragment)) (resolving fragment t).outcome := by
    refine failsWith_outcome_bind (fun _ => (appends_lift _).bind fun _ =>
      appends_resolveSubproblems.bind fun _ => appends_pure _)
      failsWith_checkDeclarations fun _ hdeclared => ?_
    have ht := checkDeclarations_ok_iff.1 hdeclared
    refine failsWith_outcome_bind (fun _ => appends_resolveSubproblems.bind fun _ => appends_pure _)
      (failsWith_membership ht) fun rows hrows => ?_
    have ha := (membership_ok_iff ht).1 ⟨rows, hrows⟩
    exact failsWith_outcome_bind (fun _ => appends_pure _)
      (failsWith_resolveSubproblems ht ha hrows (List.nil_append _).symm) fun _ _ => .ok _
  have h := hfails fault hfault
  exact ⟨h.fragment_eq, h⟩

/-- The two days, with nothing carried over. -/
def unlinkedDays : Tables :=
  { twoDays with
    timepoints := twoDays.timepoints.map fun row =>
      { row with timepoint := { row.timepoint with linkedIndex := none } } }

/-- The second of these days cannot be linked to the first. -/
theorem resolve_truthful_unlinkedDays :
    let fault : Fault := ⟨(Location.ofFragment 1).atHorizon 2 1 "day" "tuesday",
      .missingLinkedTimepoints 1⟩
    (resolve 1 unlinkedDays).outcome = .error fault ∧ fault.location.fragment = 1 ∧
      unlinkedDays.HasFault (.ofFragment 1) fault := by
  intro fault
  have e : (resolve 1 unlinkedDays).outcome = .error fault := by decide
  exact ⟨e, resolve_truthful e⟩

end CapacityExpansion.Temporal
