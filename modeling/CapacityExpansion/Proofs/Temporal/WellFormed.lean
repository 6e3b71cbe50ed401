import CapacityExpansion.Temporal.Declarations

/-!
# Well-formed temporal tables

When temporal tables fit together, said of their rows alone, without the checks
which find that out and whatever the order of the rows.

The declarations name each thing once and refer to things declared
(`WellDeclared`). The rows which put timepoints into horizons, those of the spans
if there are any, refer to things declared, and put no timepoint into two
horizons of a balancing type (`WellAssigned`). Then every stage of every
subproblem (`WellStaged`) has timepoints, those it carries over are numbered
backwards to 0, and each balancing type splits them (`WellSplit`): they are all
in horizons, no horizon is left empty or torn apart, and if the first one is
linked, the subproblem before has timepoints to link to. The stages of a
subproblem are split in the same way (`WellFormed`).
-/

namespace CapacityExpansion.Temporal

/-- A quantity is finite and positive. -/
def Positive (x : Float) : Prop := x.isFinite ∧ 0 < x

/-- The indices of timepoints carried over are `-(k-1), …, -1, 0`. -/
def CountsToZero (indices : List Int32) : Prop :=
  indices.map Int32.toInt =
    (List.range indices.length).map fun i : Nat => (i : Int) + 1 - indices.length

namespace Tables

variable (t : Tables)

/-! ## What there is -/

/-- `s` is a stage of `p`: the single stage 1 if `p` declares none. -/
def IsStage (p s : Nat) : Prop :=
  p ∈ t.subproblems ∧ ((∃ row ∈ t.stages, row.subproblem = p ∧ row.stage = s) ∨
    ((∀ row ∈ t.stages, row.subproblem ≠ p) ∧ s = 1))

/-- `τ` is a timepoint of the stage `s` of `p`. -/
def IsTimepoint (p s τ : Nat) : Prop :=
  ∃ row ∈ t.timepoints, row.subproblem = p ∧ row.stage = s ∧ row.timepoint.id = τ

/-- `h` is a horizon of `p` for the balancing type `b`. -/
def IsHorizon (p : Nat) (b : BalancingType) (h : HorizonName) : Prop :=
  ∃ row ∈ t.horizons, row.subproblem = p ∧ row.balancingType = b ∧ row.horizon = h

/-- `b` is a balancing type of some subproblem. -/
def IsBalancingType (b : BalancingType) : Prop := ∃ row ∈ t.horizons, row.balancingType = b

/-- `q` is the subproblem which comes immediately before `p` in the order of their identifiers. -/
def IsPrevious (q p : Nat) : Prop :=
  q ∈ t.subproblems ∧ q < p ∧ ∀ r ∈ t.subproblems, r < p → r ≤ q

/-- The rows put the timepoint `τ` of the stage `s` of `p` into the horizon `h`: directly, or by a
    span from a timepoint up to another one if the tables have any spans. -/
inductive Puts (p s : Nat) (b : BalancingType) (τ : Nat) (h : HorizonName) : Prop
  | directly : t.spans = [] → ⟨p, s, τ, b, h⟩ ∈ t.members → Puts p s b τ h
  | bySpan {first last : Nat} : ⟨p, s, b, h, first, last⟩ ∈ t.spans → t.IsTimepoint p s τ →
      first ≤ τ → τ ≤ last → Puts p s b τ h

/-- The indices with which timepoints of the stage `s` of `p` are carried over, in the order of the
    timepoints. -/
def indicesOf (p s : Nat) : List Int32 := (t.timepointsOf p s).filterMap Timepoint.linkedIndex

/-! ## What fits together -/

/-- The declarations name each thing once, and refer to things declared. -/
structure WellDeclared : Prop where
  periods_ne_nil : t.periods ≠ []
  nodup_periods : (t.periods.map Period.id).Nodup
  positive_period : ∀ row ∈ t.periods, Positive row.discountFactor ∧ Positive row.yearsRepresented
  subproblems_ne_nil : t.subproblems ≠ []
  nodup_subproblems : t.subproblems.Nodup
  subproblem_of_stage : ∀ row ∈ t.stages, row.subproblem ∈ t.subproblems
  nodup_stages : (t.stages.map fun row => (row.subproblem, row.stage)).Nodup
  stage_of_timepoint : ∀ row ∈ t.timepoints, t.IsStage row.subproblem row.stage
  period_of_timepoint : ∀ row ∈ t.timepoints, row.timepoint.period ∈ t.periods.map Period.id
  positive_timepoint : ∀ row ∈ t.timepoints,
    0 < row.timepoint.id ∧ Positive row.timepoint.hours ∧ Positive row.timepoint.weight
  nodup_timepoints :
    (t.timepoints.map fun row => (row.subproblem, row.stage, row.timepoint.id)).Nodup
  subproblem_of_horizon : ∀ row ∈ t.horizons, row.subproblem ∈ t.subproblems
  nodup_horizons :
    (t.horizons.map fun row => (row.subproblem, row.balancingType, row.horizon)).Nodup

/-- The rows in use put timepoints of stages into horizons, each into one of a balancing type. -/
structure WellAssigned : Prop where
  member : t.spans = [] → ∀ row ∈ t.members, t.IsStage row.subproblem row.stage ∧
    t.IsTimepoint row.subproblem row.stage row.timepoint ∧
    t.IsHorizon row.subproblem row.balancingType row.horizon
  span : ∀ row ∈ t.spans, t.IsStage row.subproblem row.stage ∧
    t.IsTimepoint row.subproblem row.stage row.first ∧
    t.IsTimepoint row.subproblem row.stage row.last ∧ row.first ≤ row.last ∧
    t.IsHorizon row.subproblem row.balancingType row.horizon
  unique : ∀ {p s b τ h h'}, t.Puts p s b τ h → t.Puts p s b τ h' → h = h'

/-- The timepoints of the stage `s` of `p` are split into the horizons of `b`, which can be
    linked. -/
structure WellSplit (p s : Nat) (b : BalancingType) : Prop where
  covered : ∀ τ, t.IsTimepoint p s τ → ∃ h, t.Puts p s b τ h
  nonempty : ∀ h, t.IsHorizon p b h → ∃ τ, t.Puts p s b τ h
  contiguous : ∀ h τ₁ τ τ₂, t.Puts p s b τ₁ h → t.Puts p s b τ₂ h → t.IsTimepoint p s τ →
    τ₁ ≤ τ → τ ≤ τ₂ → t.Puts p s b τ h
  /-- If the horizon of the first timepoint is linked, the previous subproblem, if there is one,
      carries timepoints over to the stage. -/
  linkable : ∀ h τ q, t.Puts p s b τ h → (∀ τ', t.IsTimepoint p s τ' → τ ≤ τ') →
    ⟨p, b, h, .linked⟩ ∈ t.horizons → t.IsPrevious q p → t.indicesOf q s ≠ []

/-- The stage `s` of `p` has timepoints, which are split into horizons and numbered rightly. -/
structure WellStaged (p s : Nat) : Prop where
  exists_timepoint : ∃ τ, t.IsTimepoint p s τ
  split : ∀ b, t.IsBalancingType b → t.WellSplit p s b
  indices : CountsToZero (t.indicesOf p s)

/-- The tables fit together. -/
structure WellFormed : Prop where
  declared : t.WellDeclared
  assigned : t.WellAssigned
  staged : ∀ p s, t.IsStage p s → t.WellStaged p s
  /-- The stages of a subproblem are split in the same way. -/
  shared : ∀ p s s' b τ h, t.IsStage p s → t.IsStage p s' → t.Puts p s b τ h → t.Puts p s' b τ h

end Tables

end CapacityExpansion.Temporal
