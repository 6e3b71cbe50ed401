import CapacityExpansion.Proofs.Data.Lookup
import CapacityExpansion.Proofs.Temporal.Carryover
import CapacityExpansion.Proofs.Temporal.Membership
import Mathlib.Data.List.Duplicate

/-!
# Defects of temporal tables

What each fault says of the tables, in terms of their rows alone: which defect
they have, and at which place. A fault names the place as far as the defect is
bound to it: a whole fragment, a subproblem, a stage, or a horizon in one of
these. Of several defects resolving finds only the first one, so nothing is said
here of which others there are.

* `Tables.HasFault`: the tables have the defect of a fault at its place;
* `brokenRule?_eq_find?`: of the rules for indices, the first broken one is found;
* `Tables.HasFault.not_wellFormed`: they are not well formed then.
-/

namespace CapacityExpansion.Temporal

/-- A quantity of a period. -/
def Period.quantity? (row : Period) : Quantity → Option Float
  | .discountFactor => row.discountFactor
  | .yearsRepresented => row.yearsRepresented
  | _ => none

/-- A quantity of a timepoint. -/
def Timepoint.quantity? (tp : Timepoint) : Quantity → Option Float
  | .hours => tp.hours
  | .weight => tp.weight
  | _ => none

/-- The indices, in the order of their timepoints, break a rule. -/
def IndexRule.IsBroken (indices : List Int32) : IndexRule → Prop
  | .notPositive => ∃ i ∈ indices, 0 < i.toInt
  | .increasing => ¬indices.IsChain fun i j => i.toInt < j.toInt
  | .contiguous => ¬indices.IsChain fun i j => i.toInt + 1 = j.toInt
  | .endsAtZero => ∃ i ∈ indices.getLast?, i.toInt ≠ 0

instance (indices : List Int32) : DecidablePred (IndexRule.IsBroken indices)
  | .notPositive => inferInstanceAs (Decidable (∃ i ∈ indices, 0 < i.toInt))
  | .increasing => inferInstanceAs (Decidable (¬indices.IsChain fun i j => i.toInt < j.toInt))
  | .contiguous => inferInstanceAs (Decidable (¬indices.IsChain fun i j => i.toInt + 1 = j.toInt))
  | .endsAtZero => inferInstanceAs (Decidable (∃ i ∈ indices.getLast?, i.toInt ≠ 0))

/-- The rules, in order. -/
def IndexRule.all : List IndexRule := [.notPositive, .increasing, .contiguous, .endsAtZero]

theorem IndexRule.mem_all (rule : IndexRule) : rule ∈ all := by
  cases rule <;> decide

namespace Location

variable (l : Location)

/-- The place of a stage of a subproblem. -/
def atStage (p s : Nat) : Location := (l.inSubproblem p).inStage s

/-- The place of a horizon in a stage. -/
def atHorizon (p s : Nat) (b : BalancingType) (h : HorizonName) : Location :=
  (l.atStage p s).inHorizon b h

end Location

namespace Tables

variable (t : Tables)

/-- A row declares something of the subproblem `p`. -/
inductive Mentions (p : Nat) : Prop
  | stage {row : StageRow} : row ∈ t.stages → row.subproblem = p → Mentions p
  | timepoint {row : TimepointRow} : row ∈ t.timepoints → row.subproblem = p → Mentions p
  | horizon {row : HorizonRow} : row ∈ t.horizons → row.subproblem = p → Mentions p

/-- A row in use names the timepoint `τ` of the stage `s` of `p` for the horizon `h`: as the one
    which it puts there, or, if the tables have any spans, as an end of one. -/
inductive Names (p s : Nat) (b : BalancingType) (h : HorizonName) (τ : Nat) : Prop
  | member : t.spans = [] → ⟨p, s, τ, b, h⟩ ∈ t.members → Names p s b h τ
  | first {last : Nat} : ⟨p, s, b, h, τ, last⟩ ∈ t.spans → Names p s b h τ
  | last {first : Nat} : ⟨p, s, b, h, first, τ⟩ ∈ t.spans → Names p s b h τ

/-- The tables have the defect of a fault, and they have it at the place of the fault, which lies
    in `place`. -/
inductive HasFault (place : Location) : Fault → Prop
  | noPeriods : t.periods = [] → HasFault place ⟨place, .noPeriods⟩
  | duplicatePeriod {y : Nat} : (t.periods.map Period.id).Duplicate y →
      HasFault place ⟨place, .duplicatePeriod y⟩
  | invalidPeriodValue {row : Period} {q : Quantity} {x : Float} : row ∈ t.periods →
      row.quantity? q = some x → ¬Positive x →
      HasFault place ⟨place, .invalidPeriodValue row.id q x⟩
  | noSubproblems : t.subproblems = [] → HasFault place ⟨place, .noSubproblems⟩
  | duplicateSubproblem {p : Nat} : t.subproblems.Duplicate p →
      HasFault place ⟨place.inSubproblem p, .duplicateSubproblem⟩
  /-- A declaration of a subproblem which is not declared itself. -/
  | undeclaredSubproblem {p : Nat} : t.Mentions p → p ∉ t.subproblems →
      HasFault place ⟨place.inSubproblem p, .undeclaredSubproblem⟩
  /-- A row which puts a timepoint of such a subproblem into a horizon. -/
  | unassignableSubproblem {p s τ : Nat} {b : BalancingType} {h : HorizonName} :
      t.Names p s b h τ → p ∉ t.subproblems →
      HasFault place ⟨place.atHorizon p s b h, .undeclaredSubproblem⟩
  | duplicateStage {p s : Nat} :
      (t.stages.map fun row => (row.subproblem, row.stage)).Duplicate (p, s) →
      HasFault place ⟨place.atStage p s, .duplicateStage⟩
  /-- A timepoint of a stage which its subproblem does not have. -/
  | undeclaredStage {row : TimepointRow} : row ∈ t.timepoints → row.subproblem ∈ t.subproblems →
      ¬t.IsStage row.subproblem row.stage →
      HasFault place ⟨place.atStage row.subproblem row.stage, .undeclaredStage⟩
  /-- A row which puts a timepoint of such a stage into a horizon. -/
  | unassignableStage {p s τ : Nat} {b : BalancingType} {h : HorizonName} :
      t.Names p s b h τ → p ∈ t.subproblems → ¬t.IsStage p s →
      HasFault place ⟨place.atHorizon p s b h, .undeclaredStage⟩
  | noTimepoints {p s : Nat} : t.IsStage p s → (∀ τ, ¬t.IsTimepoint p s τ) →
      HasFault place ⟨place.atStage p s, .noTimepoints⟩
  | duplicateTimepoint {p s τ : Nat} :
      (t.timepoints.map fun row => (row.subproblem, row.stage, row.timepoint.id)).Duplicate
        (p, s, τ) → HasFault place ⟨place.atStage p s, .duplicateTimepoint τ⟩
  | nonPositiveTimepoint {p s : Nat} : t.IsTimepoint p s 0 →
      HasFault place ⟨place.atStage p s, .nonPositiveTimepoint 0⟩
  | undeclaredPeriod {row : TimepointRow} : row ∈ t.timepoints →
      row.timepoint.period ∉ t.periods.map Period.id →
      HasFault place ⟨place.atStage row.subproblem row.stage,
        .undeclaredPeriod row.timepoint.id row.timepoint.period⟩
  | invalidTimepointValue {row : TimepointRow} {q : Quantity} {x : Float} : row ∈ t.timepoints →
      row.timepoint.quantity? q = some x → ¬Positive x →
      HasFault place ⟨place.atStage row.subproblem row.stage,
        .invalidTimepointValue row.timepoint.id q x⟩
  | duplicateHorizon {p : Nat} {b : BalancingType} {h : HorizonName} :
      (t.horizons.map fun row => (row.subproblem, row.balancingType, row.horizon)).Duplicate
        (p, b, h) → HasFault place ⟨(place.inSubproblem p).inHorizon b h, .duplicateHorizon⟩
  | undeclaredHorizon {p s τ : Nat} {b : BalancingType} {h : HorizonName} : t.Puts p s b τ h →
      ¬t.IsHorizon p b h → HasFault place ⟨place.atHorizon p s b h, .undeclaredHorizon τ⟩
  | unknownTimepoint {p s τ : Nat} {b : BalancingType} {h : HorizonName} : t.Names p s b h τ →
      ¬t.IsTimepoint p s τ → HasFault place ⟨place.atHorizon p s b h, .unknownTimepoint τ⟩
  | startAfterEnd {p s first last : Nat} {b : BalancingType} {h : HorizonName} :
      ⟨p, s, b, h, first, last⟩ ∈ t.spans → last < first →
      HasFault place ⟨place.atHorizon p s b h, .startAfterEnd first last⟩
  | emptyHorizon {p s : Nat} {b : BalancingType} {h : HorizonName} : t.IsStage p s →
      t.IsHorizon p b h → (∀ τ, ¬t.Puts p s b τ h) →
      HasFault place ⟨place.atHorizon p s b h, .emptyHorizon⟩
  /-- A timepoint between two of a horizon is not put into it. -/
  | nonContiguousHorizon {p s τ₁ τ τ₂ : Nat} {b : BalancingType} {h : HorizonName} :
      t.IsHorizon p b h → t.Puts p s b τ₁ h → t.Puts p s b τ₂ h → t.IsTimepoint p s τ →
      τ₁ < τ → τ < τ₂ → ¬t.Puts p s b τ h →
      HasFault place ⟨place.atHorizon p s b h, .nonContiguousHorizon⟩
  | duplicateHorizonMembership {p s τ : Nat} {b : BalancingType} {h₁ h₂ : HorizonName} :
      t.Puts p s b τ h₁ → t.Puts p s b τ h₂ → h₁ ≠ h₂ →
      HasFault place ⟨place.atHorizon p s b h₂, .duplicateHorizonMembership τ b h₁ h₂⟩
  | uncoveredTimepoint {p s τ : Nat} {b : BalancingType} : t.IsTimepoint p s τ →
      t.IsBalancingType b → (∀ h, ¬t.Puts p s b τ h) →
      HasFault place ⟨place.atStage p s, .uncoveredTimepoint τ b⟩
  | malformedLinkedTimepoints {p s : Nat} {rule : IndexRule} : t.IsStage p s →
      rule.IsBroken (t.indicesOf p s) →
      HasFault place ⟨place.atStage p s, .malformedLinkedTimepoints (t.indicesOf p s) rule⟩
  /-- The horizon of the first timepoint is linked to a subproblem which carries nothing over. -/
  | missingLinkedTimepoints {p s q τ : Nat} {b : BalancingType} {h : HorizonName} :
      t.IsStage p s → ⟨p, b, h, .linked⟩ ∈ t.horizons → t.Puts p s b τ h →
      (∀ τ', t.IsTimepoint p s τ' → τ ≤ τ') → t.IsPrevious q p → t.indicesOf q s = [] →
      HasFault place ⟨place.atHorizon p s b h, .missingLinkedTimepoints q⟩
  /-- A timepoint is put into a horizon by the first stage of a subproblem or by another one, but
      not by both. -/
  | stageHorizonMismatch {p s first τ : Nat} {b : BalancingType} {h : HorizonName} :
      t.IsStage p first → (∀ s', t.IsStage p s' → first ≤ s') → t.IsStage p s → s ≠ first →
      t.IsHorizon p b h → ¬(t.Puts p first b τ h ↔ t.Puts p s b τ h) →
      HasFault place ⟨place.atHorizon p s b h, .stageHorizonMismatch first⟩

end Tables

/-! ## Broken rules -/

section Rules

variable {indices : List Int32} {rule : IndexRule}

/-- Where the indices increase, they follow each other as they do as integers. -/
theorem isChain_succ_iff (hlt : indices.IsChain fun i j => i < j) :
    indices.IsChain (fun i j => i + 1 = j) ↔ indices.IsChain fun i j => i.toInt + 1 = j.toInt := by
  induction indices with
  | nil => exact iff_of_true .nil .nil
  | cons i indices ih =>
    cases indices with
    | nil => exact iff_of_true (.singleton i) (.singleton i)
    | cons j indices =>
      rw [List.isChain_cons_cons] at hlt
      rw [List.isChain_cons_cons, List.isChain_cons_cons, ih hlt.2, toInt_succ_of_lt hlt.1]

theorem any_pos_iff : indices.any (0 < ·) ↔ IndexRule.notPositive.IsBroken indices := by
  simp only [List.any_eq_true, decide_eq_true_eq, IndexRule.IsBroken, Int32.lt_iff_toInt_lt,
    Int32.toInt_zero]

theorem not_neighbours_lt_iff : (!neighbours (fun i j => decide (i < j)) indices) ↔
    IndexRule.increasing.IsBroken indices := by
  rw [Bool.not_eq_true', ← Bool.not_eq_true, neighbours_lt_iff]
  simp only [Int32.lt_iff_toInt_lt, IndexRule.IsBroken]

theorem not_neighbours_succ_iff (h : ¬IndexRule.increasing.IsBroken indices) :
    (!neighbours (fun i j => i + 1 == j) indices) ↔ IndexRule.contiguous.IsBroken indices := by
  simp only [IndexRule.IsBroken, not_not, ← Int32.lt_iff_toInt_lt] at h
  rw [Bool.not_eq_true', ← Bool.not_eq_true, neighbours_succ_iff, isChain_succ_iff h]
  rfl

theorem getLast?_ne_zero_iff (hne : indices ≠ []) :
    indices.getLast? ≠ some 0 ↔ IndexRule.endsAtZero.IsBroken indices := by
  rw [IndexRule.IsBroken, List.getLast?_eq_some_getLast hne]
  simp only [Option.mem_def, Option.some.injEq, exists_eq_left', ne_eq]
  rw [← Int32.toInt_inj, Int32.toInt_zero]

/-- The rule found to be broken is the first one which is. -/
theorem brokenRule?_eq_find? (hne : indices ≠ []) :
    brokenRule? indices = IndexRule.all.find? (·.IsBroken indices) := by
  rw [IndexRule.all, find?_cons_decide, find?_cons_decide, find?_cons_decide, find?_cons_decide,
    List.find?_nil, brokenRule?]
  refine if_congr any_pos_iff rfl ?_
  -- Successors are compared only if the indices increase, and then they are those of integers.
  by_cases hlt : IndexRule.increasing.IsBroken indices
  · rw [if_pos (not_neighbours_lt_iff.2 hlt), if_pos hlt]
  · rw [if_neg (mt not_neighbours_lt_iff.1 hlt), if_neg hlt]
    exact if_congr (not_neighbours_succ_iff hlt) rfl (if_congr (getLast?_ne_zero_iff hne) rfl rfl)

theorem isBroken_of_brokenRule? (hne : indices ≠ []) (h : brokenRule? indices = some rule) :
    rule.IsBroken indices := by
  rw [brokenRule?_eq_find? hne] at h
  have hrule := List.find?_some h
  exact of_decide_eq_true hrule

/-- Indices which count to zero break no rule. -/
theorem CountsToZero.not_isBroken (h : CountsToZero indices) : ¬rule.IsBroken indices := by
  by_cases hnil : indices = []
  · subst hnil
    cases rule <;> simp [IndexRule.IsBroken]
  have hnone := (brokenRule?_eq_none_iff hnil).2 h
  rw [brokenRule?_eq_find? hnil, List.find?_eq_none] at hnone
  exact fun hbroken => hnone rule rule.mem_all (decide_eq_true hbroken)

end Rules

/-! ## Defects and well-formed tables -/

namespace Tables

variable {t : Tables} {place : Location} {fault : Fault} {p s τ : Nat} {b : BalancingType}
  {h : HorizonName}

theorem WellDeclared.mem_of_mentions (ht : t.WellDeclared) (hp : t.Mentions p) :
    p ∈ t.subproblems := by
  cases hp with
  | stage hrow e => exact e ▸ ht.subproblem_of_stage _ hrow
  | timepoint hrow e => exact e ▸ (ht.stage_of_timepoint _ hrow).1
  | horizon hrow e => exact e ▸ ht.subproblem_of_horizon _ hrow

theorem WellAssigned.of_names (ha : t.WellAssigned) (hτ : t.Names p s b h τ) :
    t.IsStage p s ∧ t.IsTimepoint p s τ := by
  cases hτ with
  | member hnil hrow => exact ⟨(ha.member hnil _ hrow).1, (ha.member hnil _ hrow).2.1⟩
  | first hrow => exact ⟨(ha.span _ hrow).1, (ha.span _ hrow).2.1⟩
  | last hrow => exact ⟨(ha.span _ hrow).1, (ha.span _ hrow).2.2.1⟩

/-- A fault is in the fragment. -/
theorem HasFault.fragment_eq (hf : t.HasFault place fault) :
    fault.location.fragment = place.fragment := by
  cases hf <;> rfl

/-- Tables which have the defect of some fault are not well formed. -/
theorem HasFault.not_wellFormed (hf : t.HasFault place fault) : ¬t.WellFormed := by
  rintro ⟨hd, ha, hstaged, hshared⟩
  have hsplit : ∀ {p s b}, t.IsStage p s → t.IsBalancingType b → t.WellSplit p s b :=
    fun hs hb => (hstaged _ _ hs).split _ hb
  have hbalancing : ∀ {p b h}, t.IsHorizon p b h → t.IsBalancingType b := by
    rintro _ _ _ ⟨row, hrow, -, e, -⟩
    exact ⟨row, hrow, e⟩
  have hstage : ∀ {p s τ}, t.IsTimepoint p s τ → t.IsStage p s := by
    rintro _ _ _ ⟨row, hrow, rfl, rfl, -⟩
    exact hd.stage_of_timepoint row hrow
  cases hf with
  | noPeriods hnil => exact hd.periods_ne_nil hnil
  | duplicatePeriod hdup => exact hdup.not_nodup hd.nodup_periods
  | @invalidPeriodValue row q x hrow hx hpos =>
    obtain ⟨hdiscount, hyears⟩ := hd.positive_period row hrow
    cases q <;> cases hx
    · exact hpos hdiscount
    · exact hpos hyears
  | noSubproblems hnil => exact hd.subproblems_ne_nil hnil
  | duplicateSubproblem hdup => exact hdup.not_nodup hd.nodup_subproblems
  | undeclaredSubproblem hp hnot => exact hnot (hd.mem_of_mentions hp)
  | unassignableSubproblem hτ hnot => exact hnot (ha.of_names hτ).1.1
  | duplicateStage hdup => exact hdup.not_nodup hd.nodup_stages
  | undeclaredStage hrow _ hnot => exact hnot (hd.stage_of_timepoint _ hrow)
  | unassignableStage hτ _ hnot => exact hnot (ha.of_names hτ).1
  | noTimepoints hs hnone =>
    obtain ⟨τ, hτ⟩ := (hstaged _ _ hs).exists_timepoint
    exact hnone τ hτ
  | duplicateTimepoint hdup => exact hdup.not_nodup hd.nodup_timepoints
  | nonPositiveTimepoint hzero =>
    obtain ⟨row, hrow, -, -, e⟩ := hzero
    exact absurd (hd.positive_timepoint row hrow).1 (by omega)
  | undeclaredPeriod hrow hnot => exact hnot (hd.period_of_timepoint _ hrow)
  | @invalidTimepointValue row q x hrow hx hpos =>
    obtain ⟨-, hhours, hweight⟩ := hd.positive_timepoint row hrow
    cases q <;> cases hx
    · exact hpos hhours
    · exact hpos hweight
  | duplicateHorizon hdup => exact hdup.not_nodup hd.nodup_horizons
  | undeclaredHorizon hputs hnot => exact hnot (ha.isHorizon hputs)
  | unknownTimepoint hτ hnot => exact hnot (ha.of_names hτ).2
  | startAfterEnd hrow hlt => exact absurd (ha.span _ hrow).2.2.2.1 (by simp only; omega)
  | emptyHorizon hs hh hnone =>
    obtain ⟨τ, hputs⟩ := (hsplit hs (hbalancing hh)).nonempty _ hh
    exact hnone τ hputs
  | nonContiguousHorizon hh h₁ h₂ hτ hlt₁ hlt₂ hnot =>
    exact hnot ((hsplit (hstage hτ) (hbalancing hh)).contiguous _ _ _ _ h₁ h₂ hτ
      (Nat.le_of_lt hlt₁) (Nat.le_of_lt hlt₂))
  | duplicateHorizonMembership h₁ h₂ hne => exact hne (ha.unique h₁ h₂)
  | uncoveredTimepoint hτ hb hnone =>
    obtain ⟨h, hputs⟩ := (hsplit (hstage hτ) hb).covered _ hτ
    exact hnone h hputs
  | malformedLinkedTimepoints hs hbroken => exact (hstaged _ _ hs).indices.not_isBroken hbroken
  | missingLinkedTimepoints hs hrow hputs hle hq hnil =>
    exact (hsplit hs ⟨_, hrow, rfl⟩).linkable _ _ _ hputs hle hrow hq hnil
  | stageHorizonMismatch hfirst _ hs _ _ hne =>
    exact hne ⟨hshared _ _ _ _ _ _ hfirst hs, hshared _ _ _ _ _ _ hs hfirst⟩

end Tables

end CapacityExpansion.Temporal
