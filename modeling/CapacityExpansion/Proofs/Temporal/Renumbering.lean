import CapacityExpansion.Proofs.Data.Increasing
import CapacityExpansion.Proofs.Data.Translation
import CapacityExpansion.Proofs.Temporal.Reporting
import CapacityExpansion.Temporal.Resolution
import Mathlib.Order.Monotone.Basic

/-!
# Renumbering timepoints

Timepoints are given numbers `f τ` instead of `τ`, in the tables and in what they
are resolved to. If the order of all numbers is kept, and so is 0, resolving does
the same with the new numbers, step by step.

* `Tables.renumber`, `Hierarchy.renumber`, `Fault.renumber`: new numbers;
* `renamed`, `Resolving.renamed`: computations whose faults have new numbers;
* `simulates_membership`, `simulates_resolveStage`: the steps of resolving;
* `resolve_renumber_of_strictMono`: resolving.
-/

namespace CapacityExpansion.Temporal

/-! ## New numbers -/

section Numbers

variable (f : Nat → Nat)

/-- The timepoint with its new number. -/
def Timepoint.renumber (tp : Timepoint) : Timepoint := { tp with id := f tp.id }

/-- The row of a timepoint with its new number. -/
def TimepointRow.renumber (row : TimepointRow) : TimepointRow :=
  { row with timepoint := row.timepoint.renumber f }

/-- The row of a member with its new number. -/
def MemberRow.renumber (row : MemberRow) : MemberRow := { row with timepoint := f row.timepoint }

/-- The span between the new numbers of its ends. -/
def SpanRow.renumber (row : SpanRow) : SpanRow :=
  { row with first := f row.first, last := f row.last }

/-- The tables with new numbers for the timepoints. -/
def Tables.renumber (t : Tables) : Tables :=
  { t with
    timepoints := t.timepoints.map (TimepointRow.renumber f)
    members := t.members.map (MemberRow.renumber f)
    spans := t.spans.map (SpanRow.renumber f) }

/-- The neighbour with its new number; indices stay as they are. -/
def Adjacent.renumber : Adjacent → Adjacent
  | .timepoint id => .timepoint (f id)
  | .linked index => .linked index

/-- The horizon with new numbers. -/
def Horizon.renumber (hz : Horizon) : Horizon := { hz with timepoints := hz.timepoints.map f }

/-- The link with new numbers. -/
def Link.renumber (link : Link) : Link :=
  { link with
    timepoint := f link.timepoint
    previous := link.previous.map (Adjacent.renumber f)
    next := link.next.map (Adjacent.renumber f) }

/-- The timeline with new numbers. -/
def Timeline.renumber (tl : Timeline) : Timeline :=
  { tl with
    horizons := tl.horizons.map (Horizon.renumber f)
    links := tl.links.map (Link.renumber f) }

/-- The timepoint carried over with its new number, under the same index. -/
def LinkedTimepoint.renumber (l : LinkedTimepoint) : LinkedTimepoint :=
  { l with timepoint := l.timepoint.renumber f }

/-- What a subproblem carries over, with new numbers. -/
def Source.renumber (source : Source) : Source :=
  { source with linked := source.linked.map (LinkedTimepoint.renumber f) }

/-- The stage with new numbers. -/
def Stage.renumber (stage : Stage) : Stage :=
  { stage with
    timepoints := stage.timepoints.map (Timepoint.renumber f)
    timelines := stage.timelines.map (Timeline.renumber f)
    linkedTimepoints := stage.linkedTimepoints.map (LinkedTimepoint.renumber f)
    linkedPredecessors := stage.linkedPredecessors.map (LinkedTimepoint.renumber f) }

/-- The subproblem with new numbers. -/
def Subproblem.renumber (sub : Subproblem) : Subproblem :=
  { sub with stages := sub.stages.map (Stage.renumber f) }

/-- The hierarchy with new numbers. -/
def Hierarchy.renumber (H : Hierarchy) : Hierarchy :=
  { H with subproblems := H.subproblems.map (Subproblem.renumber f) }

/-- The defect with new numbers for the timepoints it names. -/
def Defect.renumber : Defect → Defect
  | .duplicateTimepoint τ => .duplicateTimepoint (f τ)
  | .nonPositiveTimepoint τ => .nonPositiveTimepoint (f τ)
  | .undeclaredPeriod τ period => .undeclaredPeriod (f τ) period
  | .invalidTimepointValue τ quantity value => .invalidTimepointValue (f τ) quantity value
  | .undeclaredHorizon τ => .undeclaredHorizon (f τ)
  | .unknownTimepoint τ => .unknownTimepoint (f τ)
  | .startAfterEnd first last => .startAfterEnd (f first) (f last)
  | .duplicateHorizonMembership τ b first second =>
    .duplicateHorizonMembership (f τ) b first second
  | .uncoveredTimepoint τ b => .uncoveredTimepoint (f τ) b
  | defect => defect

/-- The fault with new numbers, at the same place. -/
def Fault.renumber (fault : Fault) : Fault := { fault with defect := fault.defect.renumber f }

/-- What tables are resolved to, with new numbers and the same demotions. -/
def Resolution.renumber (r : Resolution) : Resolution :=
  { r with outcome := (r.outcome.map (Hierarchy.renumber f)).mapError (Fault.renumber f) }

/-! ## Computations -/

/-- A check whose faults have new numbers. -/
def renamed : Translation (Except Fault) (Except Fault) where
  apply x := x.mapError (Fault.renumber f)
  apply_pure _ := rfl
  apply_bind x k := by cases x <;> rfl

/-- A computation whose faults have new numbers. It reports the same demotions. -/
def Resolving.renamed : Translation Resolving Resolving where
  apply x := ExceptT.mk (Except.mapError (Fault.renumber f) <$> x.run)
  apply_pure _ := rfl
  apply_bind x k := by
    refine ExceptT.ext ?_
    simp only [ExceptT.run_bind, ExceptT.run_mk, map_bind, bind_map_left]
    refine bind_congr fun result => ?_
    cases result <;> rfl

end Numbers

variable {f : Nat → Nat} {α α' : Type} {g : α → α'}

theorem simulates_require {condition condition' : Prop} [Decidable condition]
    [Decidable condition'] (hc : condition' ↔ condition) {fault : Fault} :
    Simulates (renamed f) id (require condition fault)
      (require condition' (fault.renumber f)) := by
  rw [Simulates, require, require, if_congr hc rfl rfl]
  split <;> rfl

theorem simulates_lift {x : Except Fault α} {y : Except Fault α'} (h : Simulates (renamed f) g x y) :
    Simulates (Resolving.renamed f) g (liftM x) (liftM y) := by
  rw [Simulates] at h
  rw [h]
  cases x <;> rfl

/-! ## Declarations

From here on new numbers are given by a function `σ` which keeps the order of all numbers, so that
timepoints are the same, and before each other, if and only if their new numbers are. -/

variable {t : Tables} {place : Location} {p s τ : Nat} {b : BalancingType} {rows : List MemberRow}
  {σ : Nat → Nat}

namespace Tables

theorem timepointsOf_renumber (hσ : StrictMono σ) (p s : Nat) :
    (t.renumber σ).timepointsOf p s = (t.timepointsOf p s).map (Timepoint.renumber σ) := by
  have hle : ∀ a b : Timepoint, (a.renumber σ).id ≤ (b.renumber σ).id ↔ a.id ≤ b.id :=
    fun _ _ => hσ.le_iff_le
  rw [timepointsOf, renumber, List.filter_map, List.map_map, timepointsOf, ← sortOn_map hle,
    List.map_map]
  rfl

theorem map_id_timepointsOf_renumber (hσ : StrictMono σ) (p s : Nat) :
    ((t.renumber σ).timepointsOf p s).map Timepoint.id =
      ((t.timepointsOf p s).map Timepoint.id).map σ := by
  rw [timepointsOf_renumber hσ, List.map_map, List.map_map]
  rfl

theorem simulates_checkPeriod (earlier : List Period) (row : Period) :
    Simulates (renamed σ) id (checkPeriod place earlier row) (checkPeriod place earlier row) :=
  (simulates_require .rfl).bind fun _ => (simulates_require .rfl).bind fun _ =>
    simulates_require .rfl

theorem simulates_checkStage (earlier : List StageRow) (row : StageRow) :
    Simulates (renamed σ) id (t.checkStage place earlier row)
      ((t.renumber σ).checkStage place earlier row) :=
  (simulates_require .rfl).bind fun _ => simulates_require .rfl

/-- Whether a timepoint is new is seen from its new number as well, and so is whether it is 0 if 0
    stays 0. -/
theorem simulates_checkTimepoint (hσ : StrictMono σ) (earlier : List TimepointRow)
    {row : TimepointRow} (hzero : σ row.timepoint.id = 0 ↔ row.timepoint.id = 0) :
    Simulates (renamed σ) id (t.checkTimepoint place earlier row)
      ((t.renumber σ).checkTimepoint place (earlier.map (TimepointRow.renumber σ))
        (row.renumber σ)) := by
  have hkey : (row.subproblem, row.stage, σ row.timepoint.id) ∉
      (earlier.map (TimepointRow.renumber σ)).map
        (fun r => (r.subproblem, r.stage, r.timepoint.id)) ↔
      (row.subproblem, row.stage, row.timepoint.id) ∉
        earlier.map (fun r => (r.subproblem, r.stage, r.timepoint.id)) := by
    simp only [List.mem_map, exists_exists_and_eq_and, TimepointRow.renumber, Timepoint.renumber,
      Prod.mk.injEq, hσ.injective.eq_iff]
  exact (simulates_require .rfl).bind fun _ => (simulates_require .rfl).bind fun _ =>
    (simulates_require hzero.not).bind fun _ => (simulates_require .rfl).bind fun _ =>
    (simulates_require .rfl).bind fun _ => (simulates_require .rfl).bind fun _ =>
    simulates_require hkey

theorem simulates_checkHorizon (earlier : List HorizonRow) (row : HorizonRow) :
    Simulates (renamed σ) id (t.checkHorizon place earlier row)
      ((t.renumber σ).checkHorizon place earlier row) :=
  (simulates_require .rfl).bind fun _ => simulates_require .rfl

theorem simulates_checkDeclarations (hσ : StrictMono σ)
    (hzero : ∀ row ∈ t.timepoints, σ row.timepoint.id = 0 ↔ row.timepoint.id = 0) :
    Simulates (renamed σ) id (t.checkDeclarations place)
      ((t.renumber σ).checkDeclarations place) :=
  (simulates_require .rfl).bind fun _ =>
    (Simulates.checkInOrder_same (fun _ _ _ => simulates_checkPeriod _ _) []).bind fun _ =>
    (simulates_require .rfl).bind fun _ =>
    (Simulates.checkInOrder_same (fun _ _ _ => simulates_require .rfl) []).bind fun _ =>
    (Simulates.checkInOrder_same (fun _ _ _ => simulates_checkStage _ _) []).bind fun _ =>
    (Simulates.checkInOrder (fun earlier row hrow =>
      simulates_checkTimepoint hσ earlier (hzero row hrow)) []).bind fun _ =>
    .checkInOrder_same (fun _ _ _ => simulates_checkHorizon _ _) []

/-! ## Membership -/

theorem simulates_checkStageOf (place : Location) (p s : Nat) :
    Simulates (renamed σ) id (t.checkStageOf place p s)
      ((t.renumber σ).checkStageOf place p s) :=
  (simulates_require .rfl).bind fun _ => simulates_require .rfl

theorem simulates_rowsOfMember (hσ : StrictMono σ) (row : MemberRow) :
    Simulates (renamed σ) (List.map (MemberRow.renumber σ)) (t.rowsOfMember place row)
      ((t.renumber σ).rowsOfMember place (row.renumber σ)) := by
  refine (simulates_checkStageOf _ _ _).bind fun _ => (simulates_require ?_).bind fun _ =>
    .pure rfl
  rw [map_id_timepointsOf_renumber hσ]
  exact List.mem_map_of_injective hσ.injective

theorem simulates_positionOf (hσ : StrictMono σ) (τs : List Nat) (τ : Nat) :
    Simulates (renamed σ) id (positionOf place τs τ) (positionOf place (τs.map σ) (σ τ)) := by
  have hidx : (τs.map σ).idxOf (σ τ) = τs.idxOf τ := by
    rw [List.idxOf, List.findIdx_map, List.idxOf]
    exact congrArg (List.findIdx · τs) (funext fun υ => hσ.injective.beq_eq)
  rw [Simulates, positionOf, positionOf, hidx,
    if_congr (List.mem_map_of_injective hσ.injective) rfl rfl]
  split <;> rfl

/-- The rows of a span are those between the same positions. -/
theorem simulates_rowsOfSpan (hσ : StrictMono σ) (row : SpanRow) :
    Simulates (renamed σ) (List.map (MemberRow.renumber σ)) (t.rowsOfSpan place row)
      ((t.renumber σ).rowsOfSpan place (row.renumber σ)) := by
  refine (simulates_checkStageOf _ _ _).bind fun _ => ?_
  rw [map_id_timepointsOf_renumber hσ]
  refine (simulates_positionOf hσ _ _).bind fun first =>
    (simulates_positionOf hσ _ _).bind fun last => (simulates_require .rfl).bind fun _ => ?_
  refine .pure ?_
  rw [← List.map_drop, ← List.map_take, List.map_map, List.map_map]
  rfl

end Tables

/-- The horizon of a timepoint is found under its new number. -/
theorem horizonAmong_renumber (hσ : StrictMono σ) (rows : List MemberRow) (p s : Nat)
    (b : BalancingType) (τ : Nat) :
    horizonAmong (rows.map (MemberRow.renumber σ)) p s b (σ τ) = horizonAmong rows p s b τ := by
  have hrow : ((fun row : MemberRow => row.subproblem == p && row.stage == s &&
        row.timepoint == σ τ && row.balancingType == b) ∘ MemberRow.renumber σ) =
      fun row => row.subproblem == p && row.stage == s && row.timepoint == τ &&
        row.balancingType == b := by
    funext row
    simp only [Function.comp, MemberRow.renumber, hσ.injective.beq_eq]
  rw [horizonAmong, List.find?_map, Option.map_map, hrow, horizonAmong]
  rfl

namespace Tables

theorem simulates_addMember (hσ : StrictMono σ) (rows : List MemberRow) (row : MemberRow) :
    Simulates (renamed σ) (List.map (MemberRow.renumber σ)) (t.addMember place rows row)
      ((t.renumber σ).addMember place (rows.map (MemberRow.renumber σ)) (row.renumber σ)) := by
  have hcheck : Simulates (renamed σ) id (t.checkMember place rows row)
      ((t.renumber σ).checkMember place (rows.map (MemberRow.renumber σ)) (row.renumber σ)) := by
    refine (simulates_require .rfl).bind fun _ => ?_
    dsimp only [MemberRow.renumber]
    rw [horizonAmong_renumber hσ]
    split
    · exact .pure rfl
    · exact simulates_require .rfl
  exact hcheck.bind fun _ => .pure (by rw [List.map_append]; rfl)

theorem simulates_collectMembers (hσ : StrictMono σ) {ρ : Type} {u : ρ → ρ}
    {rowsOf rowsOf' : ρ → Except Fault (List MemberRow)}
    (h : ∀ r, Simulates (renamed σ) (List.map (MemberRow.renumber σ)) (rowsOf r) (rowsOf' (u r)))
    (rs : List ρ) :
    Simulates (renamed σ) (List.map (MemberRow.renumber σ)) (t.collectMembers place rowsOf rs)
      ((t.renumber σ).collectMembers place rowsOf' (rs.map u)) :=
  .foldlM (fun soFar r _ => (h r).bind fun _ =>
    .foldlM (fun soFar row _ => simulates_addMember hσ soFar row) soFar) []

theorem simulates_membership (hσ : StrictMono σ) :
    Simulates (renamed σ) (List.map (MemberRow.renumber σ)) (t.membership place)
      ((t.renumber σ).membership place) := by
  unfold membership
  cases e : t.spans with
  | nil =>
    have e' : (t.renumber σ).spans = [] := List.map_eq_nil_iff.2 e
    rw [e']
    exact simulates_collectMembers hσ (simulates_rowsOfMember hσ) t.members
  | cons row rest =>
    have e' : (t.renumber σ).spans = row.renumber σ :: rest.map (SpanRow.renumber σ) := by
      rw [renumber, e]
      rfl
    rw [e']
    exact simulates_collectMembers hσ (simulates_rowsOfSpan hσ) (row :: rest)

end Tables

/-! ## Timelines -/

/-- The timepoint with its position and its horizon, and with its new number. -/
def renumberPlaced (σ : Nat → Nat) (m : Nat × Timepoint × HorizonName) :
    Nat × Timepoint × HorizonName :=
  (m.1, m.2.1.renumber σ, m.2.2)

theorem simulates_placed (hσ : StrictMono σ) (timepoints : List Timepoint) :
    Simulates (renamed σ) (List.map (renumberPlaced σ)) (placed place rows p s b timepoints)
      (placed place (rows.map (MemberRow.renumber σ)) p s b
        (timepoints.map (Timepoint.renumber σ))) := by
  rw [placed, placed, List.zipIdx_map]
  refine .mapM fun tp _ => ?_
  dsimp only [Prod.map, Timepoint.renumber]
  rw [horizonAmong_renumber hσ]
  split <;> rfl

theorem totalHours_renumber (σ : Nat → Nat) (timepoints : List Timepoint) :
    totalHours (timepoints.map (Timepoint.renumber σ)) = totalHours timepoints := by
  rw [totalHours, List.foldl_map]
  rfl

theorem neighbours_map {α β : Type} {r : α → α → Bool} {r' : β → β → Bool} {u : α → β}
    (hu : ∀ a b, r' (u a) (u b) = r a b) (l : List α) :
    neighbours r' (l.map u) = neighbours r l := by
  induction l with
  | nil => rfl
  | cons a l ih =>
    cases l with
    | nil => rfl
    | cons b l =>
      rw [List.map_cons] at ih
      rw [List.map_cons, List.map_cons, neighbours, neighbours, ih, hu]

/-- Whether the timepoints of a horizon follow each other depends on their positions only. -/
theorem simulates_horizonOf (place : Location) (σ : Nat → Nat)
    (members : List (Nat × Timepoint × HorizonName)) (row : HorizonRow) :
    Simulates (renamed σ) (Prod.map id (Horizon.renumber σ)) (horizonOf place members row)
      (horizonOf place (members.map (renumberPlaced σ)) row) := by
  have hown : (members.map (renumberPlaced σ)).filter (·.2.2 == row.horizon) =
      (members.filter (·.2.2 == row.horizon)).map (renumberPlaced σ) := List.filter_map
  unfold horizonOf
  rw [hown]
  cases members.filter (·.2.2 == row.horizon) with
  | nil => rfl
  | cons first rest =>
    have hnext : neighbours (fun a b => a.1 + 1 == b.1) ((first :: rest).map (renumberPlaced σ)) =
        neighbours (fun a b => a.1 + 1 == b.1) (first :: rest) :=
      neighbours_map (fun _ _ => rfl) _
    have hids : ((first :: rest).map (renumberPlaced σ)).map (·.2.1.id) =
        ((first :: rest).map (·.2.1.id)).map σ := by
      rw [List.map_map, List.map_map]
      rfl
    have hduration : totalHours (((first :: rest).map (renumberPlaced σ)).map (·.2.1)) =
        totalHours ((first :: rest).map (·.2.1)) := by
      rw [← totalHours_renumber σ ((first :: rest).map _), List.map_map, List.map_map]
      rfl
    refine (simulates_require (by rw [← hnext]; rfl)).bind fun _ => .pure ?_
    exact Prod.ext rfl (congrArg₂ (Horizon.mk row.horizon row.boundary row.boundary) hids hduration)

theorem simulates_orderedHorizons (hσ : StrictMono σ) (timepoints : List Timepoint)
    (declared : List HorizonRow) :
    Simulates (renamed σ) (List.map (Horizon.renumber σ))
      (orderedHorizons place rows p s b timepoints declared)
      (orderedHorizons place (rows.map (MemberRow.renumber σ)) p s b
        (timepoints.map (Timepoint.renumber σ)) declared) := by
  refine (simulates_placed hσ timepoints).bind fun members => ?_
  refine (Simulates.mapM_same fun row _ => simulates_horizonOf place σ members row).map
    fun horizons => ?_
  have hle : ∀ a b : Nat × Horizon,
      (Prod.map id (Horizon.renumber σ) a).1 ≤ (Prod.map id (Horizon.renumber σ) b).1 ↔
        a.1 ≤ b.1 := fun _ _ => .rfl
  rw [sortOn_map hle, List.map_map, List.map_map]
  rfl

theorem carriedOver_renumber (timepoints : List Timepoint) :
    carriedOver (timepoints.map (Timepoint.renumber σ)) =
      (carriedOver timepoints).map (LinkedTimepoint.renumber σ) := by
  rw [carriedOver, carriedOver, List.filterMap_map, List.map_reverse, List.map_filterMap]
  refine congrArg List.reverse (congrArg (List.filterMap · timepoints) (funext fun tp => ?_))
  rw [Option.map_map]
  rfl

theorem simulates_checkedCarriedOver (timepoints : List Timepoint) :
    Simulates (renamed σ) (List.map (LinkedTimepoint.renumber σ))
      (checkedCarriedOver place timepoints)
      (checkedCarriedOver place (timepoints.map (Timepoint.renumber σ))) := by
  have hindices : (timepoints.map (Timepoint.renumber σ)).filterMap Timepoint.linkedIndex =
      timepoints.filterMap Timepoint.linkedIndex := by
    rw [List.filterMap_map]
    rfl
  unfold checkedCarriedOver
  rw [hindices, carriedOver_renumber]
  dsimp only
  split <;> rfl

/-! ## Boundaries and neighbours -/

theorem simulates_effectiveBoundary (source : Option Source) (isFirst : Bool)
    (declared : Boundary) :
    Simulates (Resolving.renamed σ) id (effectiveBoundary place source isFirst declared)
      (effectiveBoundary place (source.map (Source.renumber σ)) isFirst declared) := by
  unfold effectiveBoundary
  split
  · exact .pure rfl
  · split
    · rfl
    · cases source with
      | none => rfl
      | some source =>
        rw [Option.map_some, Source.renumber]
        dsimp only
        rw [List.isEmpty_map]
        split <;> rfl

theorem simulates_settleBoundaries (source : Option Source) (isFirst : Bool)
    (horizons : List Horizon) :
    Simulates (Resolving.renamed σ) (List.map (Horizon.renumber σ))
      (settleBoundaries place b source isFirst horizons)
      (settleBoundaries place b (source.map (Source.renumber σ)) isFirst
        (horizons.map (Horizon.renumber σ))) := by
  induction horizons generalizing isFirst with
  | nil => exact .pure rfl
  | cons hz rest ih =>
    exact (simulates_effectiveBoundary source isFirst hz.declared).bind fun boundary =>
      (ih false).map fun rest => rfl

theorem chain_renumber (name : HorizonName) (before after : Option Adjacent) (τs : List Nat) :
    chain name (before.map (Adjacent.renumber σ)) (after.map (Adjacent.renumber σ)) (τs.map σ) =
      (chain name before after τs).map (Link.renumber σ) := by
  induction τs generalizing before with
  | nil => rfl
  | cons τ τs ih =>
    cases τs with
    | nil => rfl
    | cons υ τs => exact congrArg (List.cons _) (ih (some (.timepoint τ)))

/-- The links of a horizon depend on the order of its timepoints only. -/
theorem links_renumber (hz : Horizon) :
    (hz.renumber σ).links = hz.links.map (Link.renumber σ) := by
  have hlast : ((hz.timepoints.map σ).getLast?).map Adjacent.timepoint =
      (hz.timepoints.getLast?.map Adjacent.timepoint).map (Adjacent.renumber σ) := by
    rw [List.getLast?_map, Option.map_map, Option.map_map]
    rfl
  have hhead : ((hz.timepoints.map σ).head?).map Adjacent.timepoint =
      (hz.timepoints.head?.map Adjacent.timepoint).map (Adjacent.renumber σ) := by
    rw [List.head?_map, Option.map_map, Option.map_map]
    rfl
  unfold Horizon.links
  dsimp only [Horizon.renumber]
  cases hz.boundary with
  | circular =>
    dsimp only
    rw [hlast, hhead, chain_renumber]
  | linear => exact chain_renumber hz.name none none hz.timepoints
  | linked => exact chain_renumber hz.name (some (.linked 0)) none hz.timepoints

theorem simulates_resolveTimeline (hσ : StrictMono σ) (source : Option Source)
    (timepoints : List Timepoint) :
    Simulates (Resolving.renamed σ) (Timeline.renumber σ)
      (resolveTimeline place t rows source p s timepoints b)
      (resolveTimeline place (t.renumber σ) (rows.map (MemberRow.renumber σ))
        (source.map (Source.renumber σ)) p s (timepoints.map (Timepoint.renumber σ)) b) := by
  refine (simulates_lift (simulates_orderedHorizons hσ timepoints _)).bind fun ordered =>
    (simulates_settleBoundaries source true ordered).map fun horizons => ?_
  have hlinks : (horizons.map (Horizon.renumber σ)).flatMap Horizon.links =
      (horizons.flatMap Horizon.links).map (Link.renumber σ) := by
    rw [List.flatMap_map, List.map_flatMap]
    simp only [links_renumber]
  rw [hlinks]
  rfl

/-! ## The hierarchy -/

theorem anyLinked_renumber (timelines : List Timeline) :
    anyLinked (timelines.map (Timeline.renumber σ)) = anyLinked timelines := by
  simp only [anyLinked, List.any_map, Function.comp_def, Timeline.renumber, Horizon.renumber]

theorem simulates_resolveStage (hσ : StrictMono σ) (previous : Option Nat)
    (stage : Nat × String) :
    Simulates (Resolving.renamed σ) (Stage.renumber σ)
      (resolveStage place t rows previous p stage)
      (resolveStage place (t.renumber σ) (rows.map (MemberRow.renumber σ)) previous p stage) := by
  have hsource : (previous.map fun q =>
        (⟨q, carriedOver ((t.renumber σ).timepointsOf q stage.1)⟩ : Source)) =
      (previous.map fun q => ⟨q, carriedOver (t.timepointsOf q stage.1)⟩).map
        (Source.renumber σ) := by
    rw [Option.map_map]
    simp only [Tables.timepointsOf_renumber hσ, carriedOver_renumber]
    rfl
  unfold resolveStage
  rw [hsource, Tables.timepointsOf_renumber hσ]
  generalize (previous.map fun q => (⟨q, carriedOver (t.timepointsOf q stage.1)⟩ : Source)) = source
  refine (simulates_lift (simulates_require List.map_eq_nil_iff.not)).bind fun _ =>
    (simulates_lift (simulates_checkedCarriedOver _)).bind fun linkedTimepoints =>
    (Simulates.mapM_same fun b _ => simulates_resolveTimeline hσ source _).map fun timelines => ?_
  have hlinked : (source.map (Source.renumber σ)).elim [] Source.linked =
      (source.elim [] Source.linked).map (LinkedTimepoint.renumber σ) := by
    cases source <;> rfl
  rw [anyLinked_renumber, hlinked, Stage.renumber, apply_ite (List.map _), List.map_nil]

theorem timeline?_renumber (stage : Stage) (b : BalancingType) :
    (stage.renumber σ).timeline? b = (stage.timeline? b).map (Timeline.renumber σ) :=
  List.find?_map

/-- Horizons with the same timepoints still have the same ones. -/
theorem simulates_checkSameHorizons (hσ : StrictMono σ) (first stage : Stage) :
    Simulates (renamed σ) id (checkSameHorizons place first stage)
      (checkSameHorizons place (first.renumber σ) (stage.renumber σ)) := by
  refine .forM fun tl _ => .forM fun hz _ => simulates_require ?_
  have hown : ((((stage.renumber σ).timeline? tl.balancingType).elim []
        Timeline.horizons).find? (·.name == hz.name)) =
      (((stage.timeline? tl.balancingType).elim [] Timeline.horizons).find?
        (·.name == hz.name)).map (Horizon.renumber σ) := by
    rw [timeline?_renumber]
    cases stage.timeline? tl.balancingType with
    | none => rfl
    | some own => exact List.find?_map
  dsimp only [Timeline.renumber, Horizon.renumber] at hown ⊢
  rw [hown]
  cases ((stage.timeline? tl.balancingType).elim [] Timeline.horizons).find?
      (·.name == hz.name) with
  | none => exact iff_of_false nofun nofun
  | some own => exact Option.some_inj.trans (hσ.injective.list_map.eq_iff.trans Option.some_inj.symm)

theorem simulates_resolveSubproblem (hσ : StrictMono σ) (previous : Option Nat) (p : Nat) :
    Simulates (Resolving.renamed σ) (Subproblem.renumber σ)
      (resolveSubproblem place t rows previous p)
      (resolveSubproblem place (t.renumber σ) (rows.map (MemberRow.renumber σ)) previous p) := by
  refine (Simulates.mapM_same fun stage _ => simulates_resolveStage hσ previous stage).bind
    fun stages => ?_
  cases stages with
  | nil => exact .pure rfl
  | cons first rest =>
    refine Simulates.bind (g := id) (.forM fun stage _ => simulates_lift ?_) fun _ => .pure rfl
    exact simulates_checkSameHorizons hσ first stage

theorem simulates_resolveSubproblems (hσ : StrictMono σ) (previous : Option Nat)
    (ps : List Nat) :
    Simulates (Resolving.renamed σ) (List.map (Subproblem.renumber σ))
      (resolveSubproblems place t rows previous ps)
      (resolveSubproblems place (t.renumber σ) (rows.map (MemberRow.renumber σ)) previous ps) := by
  induction ps generalizing previous with
  | nil => exact .pure rfl
  | cons p ps ih =>
    exact (simulates_resolveSubproblem hσ previous p).bind fun sub =>
      (ih (some p)).map fun subs => rfl

theorem simulates_resolving (hσ : StrictMono σ)
    (hzero : ∀ row ∈ t.timepoints, σ row.timepoint.id = 0 ↔ row.timepoint.id = 0)
    (fragment : Nat) :
    Simulates (Resolving.renamed σ) (Hierarchy.renumber σ) (resolving fragment t)
      (resolving fragment (t.renumber σ)) :=
  (simulates_lift (Tables.simulates_checkDeclarations hσ hzero)).bind fun _ =>
    (simulates_lift (Tables.simulates_membership hσ)).bind fun _ =>
    (simulates_resolveSubproblems hσ none _).map fun _ => rfl

/-- Resolving does the same with new numbers in the same order. -/
theorem resolve_renumber_of_strictMono (hσ : StrictMono σ)
    (hzero : ∀ row ∈ t.timepoints, σ row.timepoint.id = 0 ↔ row.timepoint.id = 0)
    (fragment : Nat) :
    resolve fragment (t.renumber σ) = (resolve fragment t).renumber σ := by
  have hsim := simulates_resolving hσ hzero fragment
  rw [Simulates] at hsim
  rw [resolve, resolve, hsim, ExceptT.run_map, StateT.run_map, Resolving.renamed, ExceptT.run_mk,
    StateT.run_map]
  rcases (resolving fragment t).run.run [] with ⟨_ | _, _⟩ <;> rfl

end CapacityExpansion.Temporal
