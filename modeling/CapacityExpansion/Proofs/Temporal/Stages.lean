import CapacityExpansion.Proofs.Data.Lookup
import CapacityExpansion.Proofs.Temporal.Boundaries
import CapacityExpansion.Proofs.Temporal.Membership
import CapacityExpansion.Temporal.Resolution

/-!
# Stages and subproblems

Resolving goes down from the hierarchy over subproblems and stages to timelines,
and gives something on each level if and only if it does on the level below and
the checks in between pass. What a subproblem takes from the one before it is
read off the tables, so subproblems are resolved independently of each other.

* `resolveStage_ok_iff`, `resolveSubproblem_ok_iff`: stages and subproblems;
* `Tables.previous?`: the subproblem before another one;
* `resolve_ok_iff`: the hierarchy.
-/

namespace CapacityExpansion.Temporal

open Resolving (appends_lift appends_pure outcome_bind outcome_lift outcome_pure outcome_mapM
  outcome_forM)

variable {place : Location} {t : Tables} {rows : List MemberRow} {previous : Option Nat} {p : Nat}
  {s : Nat × String} {stage : Stage}

/-! ## Stages -/

/-- The timepoints which the previous subproblem, if there is one, carries over to a stage. -/
def Tables.sourceOf (t : Tables) (previous : Option Nat) (s : Nat) : Option Source :=
  previous.map fun q => ⟨q, carriedOver (t.timepointsOf q s)⟩

/-- The stage with some timelines. -/
def Tables.stageOf (t : Tables) (previous : Option Nat) (p : Nat) (s : Nat × String)
    (timelines : List Timeline) : Stage where
  id := s.1
  name := s.2
  timepoints := t.timepointsOf p s.1
  timelines := timelines
  linkedTimepoints := carriedOver (t.timepointsOf p s.1)
  linkedPredecessors :=
    if anyLinked timelines then (t.sourceOf previous s.1).elim [] Source.linked else []

theorem appends_resolveStage : (resolveStage place t rows previous p s).Appends :=
  (appends_lift _).bind fun _ => (appends_lift _).bind fun _ =>
    (Resolving.Appends.mapM fun _ => appends_resolveTimeline).bind fun _ => appends_pure _

/-- A stage is resolved if and only if it has timepoints, those carried over are numbered rightly,
    and there is a timeline for every balancing type. -/
theorem resolveStage_ok_iff : (resolveStage place t rows previous p s).outcome = .ok stage ↔
    t.timepointsOf p s.1 ≠ [] ∧ CountsToZero (t.indicesOf p s.1) ∧
      ∃ tls, List.Forall₂ (fun b tl => (resolveTimeline ((place.inSubproblem p).inStage s.1) t rows
        (t.sourceOf previous s.1) p s.1 (t.timepointsOf p s.1) b).outcome = .ok tl)
        t.balancingTypes tls ∧ t.stageOf previous p s tls = stage := by
  unfold resolveStage
  dsimp only
  -- Two checks come before the timelines, and each of the three may fail.
  rw [outcome_bind fun _ => (appends_lift _).bind fun _ =>
      (Resolving.Appends.mapM fun _ => appends_resolveTimeline).bind fun _ => appends_pure _,
    outcome_lift, seq_ok_iff, require_ok_iff,
    outcome_bind fun _ => (Resolving.Appends.mapM fun _ => appends_resolveTimeline).bind fun _ =>
      appends_pure _, outcome_lift, bind_ok_iff]
  refine and_congr_right fun _ => ?_
  simp only [checkedCarriedOver_ok_iff, and_assoc, exists_and_left, exists_eq_left]
  refine and_congr_right fun _ => ?_
  rw [outcome_bind fun _ => appends_pure _, bind_ok_iff,
    outcome_mapM fun _ => appends_resolveTimeline]
  simp only [mapM_ok_iff, outcome_pure, Except.ok.injEq]
  rfl

/-! ## Subproblems -/

/-- A stage has the horizons of another one, with the same timepoints. -/
def Stage.SameHorizons (first stage : Stage) : Prop :=
  ∀ tl ∈ first.timelines, ∀ hz ∈ tl.horizons,
    (((stage.timeline? tl.balancingType).elim [] Timeline.horizons).find? (·.name == hz.name)).map
      Horizon.timepoints = some hz.timepoints

theorem checkSameHorizons_ok_iff {first : Stage} :
    checkSameHorizons place first stage = .ok () ↔ first.SameHorizons stage := by
  simp only [checkSameHorizons, forM_ok_iff, require_ok_iff, Stage.SameHorizons]

/-- Comparing stages with the first one reports nothing which depends on what is reported before. -/
theorem appends_compareStages (stages : List Stage) : (do
    if let first :: rest := stages then
      rest.forM fun stage =>
        checkSameHorizons ((place.inSubproblem p).inStage stage.id) first stage
    return { id := p, stages } : Resolving Subproblem).Appends := by
  cases stages with
  | nil => exact appends_pure _
  | cons first rest =>
    exact (Resolving.Appends.forM fun _ => appends_lift _).bind fun _ => appends_pure _

theorem appends_resolveSubproblem : (resolveSubproblem place t rows previous p).Appends :=
  (Resolving.Appends.mapM fun _ => appends_resolveStage).bind appends_compareStages

/-- A subproblem is resolved if and only if its stages are, and the others have the horizons of the
    first. -/
theorem resolveSubproblem_ok_iff {sub : Subproblem} :
    (resolveSubproblem place t rows previous p).outcome = .ok sub ↔ sub.id = p ∧
      List.Forall₂ (fun s stage => (resolveStage place t rows previous p s).outcome = .ok stage)
        (t.stagesOf p) sub.stages ∧
      ∀ first ∈ sub.stages.head?, ∀ stage ∈ sub.stages.tail, first.SameHorizons stage := by
  unfold resolveSubproblem
  rw [outcome_bind, bind_ok_iff, outcome_mapM fun _ => appends_resolveStage]
  · simp only [mapM_ok_iff]
    constructor
    · rintro ⟨stages, hstages, hok⟩
      -- There is nothing to compare without a first stage.
      cases stages with
      | nil =>
        cases hok
        exact ⟨rfl, hstages, nofun⟩
      | cons first rest =>
        rw [outcome_bind fun _ => appends_pure _, outcome_forM fun _ => appends_lift _, seq_ok_iff,
          forM_ok_iff] at hok
        obtain ⟨hsame, hok⟩ := hok
        cases hok
        refine ⟨rfl, hstages, fun _ hfirst stage hmem => ?_⟩
        cases hfirst
        exact checkSameHorizons_ok_iff.1 (hsame stage hmem)
    · obtain ⟨_, stages⟩ := sub
      rintro ⟨rfl, hstages, hsame⟩
      refine ⟨stages, hstages, ?_⟩
      cases stages with
      | nil => rfl
      | cons first rest =>
        rw [outcome_bind fun _ => appends_pure _, outcome_forM fun _ => appends_lift _, seq_ok_iff,
          forM_ok_iff]
        exact ⟨fun stage hmem => checkSameHorizons_ok_iff.2 (hsame first rfl stage hmem), rfl⟩
  · exact appends_compareStages

/-! ## The subproblems in order -/

/-- The subproblem which comes immediately before another one, if there is one. -/
def Tables.previous? (t : Tables) (p : Nat) : Option Nat :=
  (t.subproblemsInOrder.filter (· < p)).getLast?

theorem Tables.previous?_eq_some_iff (ht : t.subproblems.Nodup) {q : Nat} :
    t.previous? p = some q ↔ t.IsPrevious q p := by
  rw [previous?, ((increasing_subproblemsInOrder ht).filter _).getLast?_eq_some_iff]
  simp only [List.mem_filter, mem_subproblemsInOrder, decide_eq_true_eq, id, and_imp, and_assoc]
  rfl

theorem Tables.previous?_of_append (ht : t.subproblems.Nodup) {earlier later : List Nat}
    (e : t.subproblemsInOrder = earlier ++ p :: later) : t.previous? p = earlier.getLast? := by
  have hinc := increasing_subproblemsInOrder ht
  rw [e, Increasing, List.pairwise_append, List.pairwise_cons] at hinc
  obtain ⟨-, ⟨hlater, -⟩, hearlier⟩ := hinc
  have hkeep : earlier.filter (· < p) = earlier := List.filter_eq_self.2 fun q hq =>
    decide_eq_true (hearlier q hq p List.mem_cons_self)
  have hdrop : (p :: later).filter (· < p) = [] := by
    rw [List.filter_eq_nil_iff, List.forall_mem_cons]
    exact ⟨by simp, fun q hq => by have := hlater q hq; simp only [id] at this; simp; omega⟩
  rw [previous?, e, List.filter_append, hkeep, hdrop, List.append_nil]

theorem appends_resolveSubproblems {l : List Nat} :
    (resolveSubproblems place t rows previous l).Appends := by
  induction l generalizing previous with
  | nil => exact appends_pure _
  | cons p l ih => exact appends_resolveSubproblem.bind fun _ => ih.bind fun _ => appends_pure _

/-- Each subproblem of a list is resolved with the one before. -/
theorem resolveSubproblems_ok_iff (ht : t.subproblems.Nodup) {subs : List Subproblem} :
    (resolveSubproblems place t rows none t.subproblemsInOrder).outcome = .ok subs ↔
      List.Forall₂ (fun p sub =>
        (resolveSubproblem place t rows (t.previous? p) p).outcome = .ok sub)
        t.subproblemsInOrder subs := by
  suffices h : ∀ {earlier later subs}, t.subproblemsInOrder = earlier ++ later →
      ((resolveSubproblems place t rows earlier.getLast? later).outcome = .ok subs ↔
        List.Forall₂ (fun p sub =>
          (resolveSubproblem place t rows (t.previous? p) p).outcome = .ok sub) later subs) from
    h (List.nil_append _).symm
  intro earlier later subs e
  -- The subproblem handed on is the last one resolved, hence the one before the next.
  induction later generalizing earlier subs with
  | nil => simp [resolveSubproblems, outcome_pure, eq_comm]
  | cons p later ih =>
    have hrest := @ih (earlier ++ [p])
    rw [List.getLast?_concat, ← List.append_cons] at hrest
    replace hrest := fun subs => @hrest subs e
    rw [resolveSubproblems, outcome_bind fun _ =>
      appends_resolveSubproblems.bind fun _ => appends_pure _, bind_ok_iff,
      ← Tables.previous?_of_append ht e]
    simp only [outcome_bind fun _ => appends_pure _, bind_ok_iff, outcome_pure, Except.ok.injEq,
      hrest, List.forall₂_cons_left_iff]
    constructor
    · rintro ⟨sub, hsub, subs, hsubs, rfl⟩
      exact ⟨sub, subs, hsub, hsubs, rfl⟩
    · rintro ⟨sub, subs, hsub, hsubs, rfl⟩
      exact ⟨sub, hsub, subs, hsubs, rfl⟩

/-! ## The hierarchy -/

/-- Tables are resolved if and only if their declarations and rows fit together, and their
    subproblems are resolved. -/
theorem resolve_ok_iff {fragment : Nat} {H : Hierarchy} :
    (resolve fragment t).outcome = .ok H ↔ t.WellDeclared ∧
      ∃ rows subs, t.membership (.ofFragment fragment) = .ok rows ∧
        List.Forall₂ (fun p sub => (resolveSubproblem (.ofFragment fragment) t rows (t.previous? p)
          p).outcome = .ok sub) t.subproblemsInOrder subs ∧
        H = ⟨fragment, t.periodsInOrder, subs⟩ := by
  change (resolving fragment t).outcome = .ok H ↔ _
  rw [resolving, outcome_bind fun _ => (appends_lift _).bind fun _ =>
    appends_resolveSubproblems.bind fun _ => appends_pure _, outcome_lift, seq_ok_iff,
    Tables.checkDeclarations_ok_iff]
  refine and_congr_right fun ht => ?_
  rw [outcome_bind fun _ => appends_resolveSubproblems.bind fun _ => appends_pure _, outcome_lift,
    bind_ok_iff]
  simp only [outcome_bind fun _ => appends_pure _, bind_ok_iff, outcome_pure, Except.ok.injEq,
    resolveSubproblems_ok_iff ht.nodup_subproblems]
  constructor
  · rintro ⟨rows, hrows, subs, hsubs, rfl⟩
    exact ⟨rows, subs, hrows, hsubs, rfl⟩
  · rintro ⟨rows, subs, hrows, hsubs, rfl⟩
    exact ⟨rows, hrows, subs, hsubs, rfl⟩

end CapacityExpansion.Temporal
