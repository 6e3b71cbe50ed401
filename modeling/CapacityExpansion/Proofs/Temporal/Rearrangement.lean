import CapacityExpansion.Proofs.Temporal.Agreement
import CapacityExpansion.Proofs.Temporal.Repetition

/-!
# Rearranged tables

The order of the rows does not matter, nor how often a row puts a timepoint into
a horizon. What is asked of well-formed tables is said of their rows, so it holds
of rearranged tables as well; and what is read off the tables is sorted by number,
or, in the case of the horizons of a stage, by their first timepoints. Only the
balancing types have no order of their own: they keep that of the horizon rows,
and so do the timelines of a stage.

Which of several faults is found first does depend on the order. It is the same
if rows are only given again after they have been given
(`CapacityExpansion.Proofs.Temporal.Repetition`).

* `Tables.Rearranges`: tables with the same rows;
* `Tables.Rearranges.agreeOn`: they agree on every subproblem;
* `resolve_rearranged`: what they are resolved to.
-/

namespace CapacityExpansion.Temporal

/-- The tables have the same rows, in any order. Those which put timepoints into horizons may be
    repeated any number of times. -/
structure Tables.Rearranges (t t' : Tables) : Prop where
  periods : t.periods.Perm t'.periods
  subproblems : t.subproblems.Perm t'.subproblems
  stages : t.stages.Perm t'.stages
  timepoints : t.timepoints.Perm t'.timepoints
  horizons : t.horizons.Perm t'.horizons
  members : ∀ row, row ∈ t.members ↔ row ∈ t'.members
  spans : ∀ row, row ∈ t.spans ↔ row ∈ t'.spans

/-- The tables have the same rows in the same order, but for copies of rows which put timepoints
    into horizons, given after their rows. -/
def Tables.RepeatsRows (t t' : Tables) : Prop :=
  Repeats t.members t'.members ∧ Repeats t.spans t'.spans ∧
    t' = { t with members := t'.members, spans := t'.spans }

namespace Tables

variable {t t' : Tables} {p s τ : Nat} {b : BalancingType}

namespace Rearranges

theorem symm (h : t.Rearranges t') : t'.Rearranges t :=
  ⟨h.periods.symm, h.subproblems.symm, h.stages.symm, h.timepoints.symm, h.horizons.symm,
    fun row => (h.members row).symm, fun row => (h.spans row).symm⟩

/-! ## Well-formed tables -/

section Rows

variable (h : t.Rearranges t')
include h

theorem isStage_iff : t.IsStage p s ↔ t'.IsStage p s := by
  simp only [IsStage, h.subproblems.mem_iff, h.stages.mem_iff]

theorem isTimepoint_iff : t.IsTimepoint p s τ ↔ t'.IsTimepoint p s τ := by
  simp only [IsTimepoint, h.timepoints.mem_iff]

theorem isHorizon_iff {hz : HorizonName} : t.IsHorizon p b hz ↔ t'.IsHorizon p b hz := by
  simp only [IsHorizon, h.horizons.mem_iff]

theorem isBalancingType_iff : t.IsBalancingType b ↔ t'.IsBalancingType b := by
  simp only [IsBalancingType, h.horizons.mem_iff]

theorem spans_eq_nil_iff : t.spans = [] ↔ t'.spans = [] := by
  simp only [List.eq_nil_iff_forall_not_mem, h.spans]

/-- Rearranged tables put timepoints into the same horizons. -/
theorem puts_iff {hz : HorizonName} : t.Puts p s b τ hz ↔ t'.Puts p s b τ hz := by
  have hputs : ∀ {t t' : Tables}, t.Rearranges t' → t.Puts p s b τ hz → t'.Puts p s b τ hz := by
    intro t t' h hputs
    cases hputs with
    | directly hnil hmem => exact .directly (h.spans_eq_nil_iff.1 hnil) ((h.members _).1 hmem)
    | bySpan hmem hτ hfirst hlast =>
      exact .bySpan ((h.spans _).1 hmem) (h.isTimepoint_iff.1 hτ) hfirst hlast
  exact ⟨hputs h, hputs h.symm⟩

theorem wellDeclared (ht : t.WellDeclared) : t'.WellDeclared where
  periods_ne_nil e := ht.periods_ne_nil (by rw [← List.perm_nil, ← e]; exact h.periods)
  nodup_periods := (h.periods.map _).nodup_iff.1 ht.nodup_periods
  positive_period row hrow := ht.positive_period row (h.periods.mem_iff.2 hrow)
  subproblems_ne_nil e := ht.subproblems_ne_nil (by rw [← List.perm_nil, ← e]; exact h.subproblems)
  nodup_subproblems := h.subproblems.nodup_iff.1 ht.nodup_subproblems
  subproblem_of_stage row hrow :=
    h.subproblems.mem_iff.1 (ht.subproblem_of_stage row (h.stages.mem_iff.2 hrow))
  nodup_stages := (h.stages.map _).nodup_iff.1 ht.nodup_stages
  stage_of_timepoint row hrow :=
    h.isStage_iff.1 (ht.stage_of_timepoint row (h.timepoints.mem_iff.2 hrow))
  period_of_timepoint row hrow :=
    (h.periods.map _).mem_iff.1 (ht.period_of_timepoint row (h.timepoints.mem_iff.2 hrow))
  positive_timepoint row hrow := ht.positive_timepoint row (h.timepoints.mem_iff.2 hrow)
  nodup_timepoints := (h.timepoints.map _).nodup_iff.1 ht.nodup_timepoints
  subproblem_of_horizon row hrow :=
    h.subproblems.mem_iff.1 (ht.subproblem_of_horizon row (h.horizons.mem_iff.2 hrow))
  nodup_horizons := (h.horizons.map _).nodup_iff.1 ht.nodup_horizons

theorem wellAssigned (ha : t.WellAssigned) : t'.WellAssigned where
  member hnil row hrow := by
    rw [← h.isStage_iff, ← h.isTimepoint_iff, ← h.isHorizon_iff]
    exact ha.member (h.spans_eq_nil_iff.2 hnil) row ((h.members row).2 hrow)
  span row hrow := by
    simp only [← h.isStage_iff, ← h.isTimepoint_iff, ← h.isHorizon_iff]
    exact ha.span row ((h.spans row).2 hrow)
  unique h₁ h₂ := ha.unique (h.puts_iff.2 h₁) (h.puts_iff.2 h₂)

/-! ## What is read off rearranged tables -/

theorem periodsInOrder_eq (ht : t.WellDeclared) : t.periodsInOrder = t'.periodsInOrder :=
  (increasing_sortOn ht.nodup_periods).ext
    (increasing_sortOn (h.wellDeclared ht).nodup_periods) fun row => by
      simp only [periodsInOrder, mem_sortOn, h.periods.mem_iff]

theorem subproblemsInOrder_eq (ht : t.WellDeclared) :
    t.subproblemsInOrder = t'.subproblemsInOrder :=
  (increasing_subproblemsInOrder ht.nodup_subproblems).ext
    (increasing_subproblemsInOrder (h.wellDeclared ht).nodup_subproblems) fun p => by
      rw [mem_subproblemsInOrder, mem_subproblemsInOrder, h.subproblems.mem_iff]

theorem previous?_eq (ht : t.WellDeclared) : t.previous? p = t'.previous? p := by
  rw [previous?, previous?, h.subproblemsInOrder_eq ht]

theorem stagesOf_eq (ht : t.WellDeclared) : t.stagesOf p = t'.stagesOf p :=
  (increasing_stagesOf ht.nodup_stages).ext
    (increasing_stagesOf (h.wellDeclared ht).nodup_stages) fun ⟨s, name⟩ => by
      simp only [mem_stagesOf_iff, h.stages.mem_iff]

/-- The timepoints of a stage are the same, and in the same order. -/
theorem timepointsOf_eq (ht : t.WellDeclared) : t.timepointsOf p s = t'.timepointsOf p s :=
  (increasing_timepointsOf ht.nodup_timepoints).ext
    (increasing_timepointsOf (h.wellDeclared ht).nodup_timepoints) fun tp => by
      rw [mem_timepointsOf_iff, mem_timepointsOf_iff, h.timepoints.mem_iff]

theorem sourceOf_eq (ht : t.WellDeclared) :
    t.sourceOf (t.previous? p) s = t'.sourceOf (t'.previous? p) s := by
  simp only [sourceOf, h.previous?_eq ht, h.timepointsOf_eq ht]

theorem horizonsOf_perm : (t.horizonsOf p b).Perm (t'.horizonsOf p b) := h.horizons.filter _

theorem balancingTypes_perm : t.balancingTypes.Perm t'.balancingTypes :=
  (List.perm_ext_iff_of_nodup nodup_balancingTypes nodup_balancingTypes).2 fun b => by
    rw [mem_balancingTypes_iff, mem_balancingTypes_iff, h.isBalancingType_iff]

/-- Rearranged tables agree on every subproblem. -/
theorem agreeOn (ht : t.WellDeclared) (p : Nat) : t.AgreeOn t' p where
  stagesOf_eq := h.stagesOf_eq ht
  timepointsOf_eq _ := h.timepointsOf_eq ht
  sourceOf_eq _ := h.sourceOf_eq ht
  horizonsOf_perm _ := h.horizonsOf_perm
  puts_iff _ _ _ _ := h.puts_iff

/-- Well-formed tables stay well formed. -/
theorem wellFormed (ht : t.WellFormed) : t'.WellFormed where
  declared := h.wellDeclared ht.declared
  assigned := h.wellAssigned ht.assigned
  staged p s hs := (h.agreeOn ht.declared p).wellStaged ht.declared (h.wellDeclared ht.declared)
    (fun _ => h.isBalancingType_iff.2) (ht.staged p s (h.isStage_iff.2 hs))
  shared p s s' b τ hz hs hs' hputs := h.puts_iff.1
    (ht.shared p s s' b τ hz (h.isStage_iff.2 hs) (h.isStage_iff.2 hs') (h.puts_iff.2 hputs))

end Rows

end Rearranges

end Tables

open Tables

/-! ## Hierarchies of rearranged tables -/

/-- The stages of a subproblem are the same, each but for the order of its timelines, which is that
    of the horizon rows. -/
theorem resolveSubproblem_rearranged {t t' : Tables} {place place' : Location}
    {rows rows' : List MemberRow} {p : Nat} (h : t.Rearranges t') (ht : t.WellDeclared)
    (ha : t.WellAssigned) (hrows : t.membership place = .ok rows)
    (hrows' : t'.membership place = .ok rows') {sub sub' : Subproblem}
    (hok : (resolveSubproblem place' t rows (t.previous? p) p).outcome = .ok sub)
    (hok' : (resolveSubproblem place' t' rows' (t'.previous? p) p).outcome = .ok sub') :
    sub.id = sub'.id ∧ List.Forall₂ (fun stage stage' => stage.Rearranges stage' ∧
      (t.horizons = t'.horizons → stage = stage')) sub.stages sub'.stages := by
  obtain ⟨hid, hstages⟩ := resolveSubproblem_rearranges_of_agreeOn (h.agreeOn ht p) ht ha
    (h.wellDeclared ht) (h.wellAssigned ha) hrows hrows' h.balancingTypes_perm hok hok'
  refine ⟨hid, hstages.imp fun _ _ hstage => ⟨hstage.1, fun e => hstage.2 ?_⟩⟩
  rw [balancingTypes, balancingTypes, e]

/-- Rearranged tables are resolved if and only if the tables are. Then both have the same hierarchy,
    but for the order of the timelines of each stage; and that is the same too if the horizon rows
    are kept in their order. If rows are only repeated, even faults and demotions are the same. -/
theorem resolve_rearranged {t t' : Tables} (h : t.Rearranges t') (fragment : Nat) :
    ((∃ H, (resolve fragment t).outcome = .ok H) ↔ ∃ H', (resolve fragment t').outcome = .ok H') ∧
      (∀ H H', (resolve fragment t).outcome = .ok H → (resolve fragment t').outcome = .ok H' →
        H.Rearranges H' ∧ (t.horizons = t'.horizons → H = H')) ∧
      (t.RepeatsRows t' → resolve fragment t' = resolve fragment t) := by
  refine ⟨?_, fun H H' hok hok' => ?_, fun ⟨hmembers, hspans, e⟩ => ?_⟩
  · constructor
    · rintro ⟨H, hok⟩
      exact (h.wellFormed (wellFormed_of_ok hok)).exists_resolve fragment
    · rintro ⟨H', hok'⟩
      exact (h.symm.wellFormed (wellFormed_of_ok hok')).exists_resolve fragment
  · obtain ⟨ht, rows, subs, hrows, hsubs, rfl⟩ := resolve_ok_iff.1 hok
    obtain ⟨-, rows', subs', hrows', hsubs', rfl⟩ := resolve_ok_iff.1 hok'
    have ha := (membership_ok_iff ht).1 ⟨rows, hrows⟩
    rw [← h.subproblemsInOrder_eq ht] at hsubs'
    have hsame : List.Forall₂ (fun sub sub' => sub.id = sub'.id ∧
        List.Forall₂ (fun stage stage' => stage.Rearranges stage' ∧
          (t.horizons = t'.horizons → stage = stage')) sub.stages sub'.stages) subs subs' := by
      refine forall₂_of_forall₂ (fun p sub sub' hsub hsub' => ?_) hsubs hsubs'
      exact resolveSubproblem_rearranged h ht ha hrows hrows' hsub hsub'
    refine ⟨⟨rfl, h.periodsInOrder_eq ht, hsame.imp fun sub sub' hsub => ?_⟩, fun e => ?_⟩
    · exact ⟨hsub.1, hsub.2.imp fun _ _ hstage => hstage.1⟩
    · have heq : List.Forall₂ Eq subs subs' := by
        refine hsame.imp fun ⟨id, stages⟩ ⟨id', stages'⟩ ⟨hid, hstages⟩ => ?_
        have hstages' : List.Forall₂ Eq stages stages' := hstages.imp fun _ _ hstage => hstage.2 e
        rw [List.forall₂_eq_eq_eq] at hstages'
        rw [show id = id' from hid, hstages']
      rw [List.forall₂_eq_eq_eq] at heq
      rw [heq, h.periodsInOrder_eq ht]
  · rw [e]
    exact resolve_repeats hmembers hspans fragment

/-- The two days with all rows turned round, and every span given twice. -/
def shuffledDays : Tables :=
  { twoDays with
    subproblems := twoDays.subproblems.reverse
    timepoints := twoDays.timepoints.reverse
    horizons := twoDays.horizons.reverse
    spans := twoDays.spans.reverse ++ twoDays.spans }

/-- The two days with their last span given again. -/
def repeatedDays : Tables :=
  { twoDays with spans := twoDays.spans ++ [⟨2, 1, "hour", "early", 1, 1⟩] }

/-- Shuffled, the two days have the same hierarchy but for the order of the timelines; with a span
    repeated they have the very same one. -/
theorem resolve_rearranged_twoDays :
    (∃ H H', (resolve 1 twoDays).outcome = .ok H ∧ (resolve 1 shuffledDays).outcome = .ok H' ∧
      H.Rearranges H') ∧
    (∃ H, (resolve 1 twoDays).outcome = .ok H ∧ (resolve 1 repeatedDays).outcome = .ok H) ∧
    resolve 1 repeatedDays = resolve 1 twoDays := by
  have hshuffled : twoDays.Rearranges shuffledDays :=
    ⟨.refl _, (List.reverse_perm _).symm, .refl _, (List.reverse_perm _).symm,
      (List.reverse_perm _).symm, fun _ => Iff.rfl, fun row => by simp [shuffledDays]⟩
  have hagain : Repeats twoDays.spans repeatedDays.spans :=
    .again (by rw [List.append_nil]; exact .refl) (by decide)
  have hrepeated : twoDays.Rearranges repeatedDays :=
    ⟨.refl _, .refl _, .refl _, .refl _, .refl _, fun _ => Iff.rfl, hagain.mem_iff⟩
  obtain ⟨H, hok, -⟩ := exists_resolve_twoDays
  obtain ⟨H', hok'⟩ := (resolve_rearranged hshuffled 1).1.1 ⟨H, hok⟩
  obtain ⟨H'', hok''⟩ := (resolve_rearranged hrepeated 1).1.1 ⟨H, hok⟩
  have heq := ((resolve_rearranged hrepeated 1).2.1 H H'' hok hok'').2 rfl
  refine ⟨⟨H, H', hok, hok', ((resolve_rearranged hshuffled 1).2.1 H H' hok hok').1⟩,
    ⟨H, hok, heq ▸ hok''⟩, ?_⟩
  exact (resolve_rearranged hrepeated 1).2.2 ⟨.refl, hagain, rfl⟩

end CapacityExpansion.Temporal
