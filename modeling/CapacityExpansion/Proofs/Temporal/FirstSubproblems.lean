import CapacityExpansion.Proofs.Temporal.Agreement

/-!
# The first subproblems

A subproblem is resolved with a view to the ones before it, never to those after.
So tables cut off after some subproblem are resolved to the hierarchy cut off
there.

Two things are asked of all subproblems at once, and could change when some of
them are left out: which balancing types there are, and whether there are spans.
But in well-formed tables every subproblem puts timepoints into horizons of every
balancing type, and by spans if there are any; so it declares all balancing types
by itself, and has spans by itself.

* `Tables.only`, `Tables.firstSubproblems`: the tables with some subproblems only;
* `Tables.Initial`: subproblems which come before all others;
* `Tables.Initial.wellFormed`: cut off after some subproblem, tables stay well formed;
* `resolve_firstSubproblems`: what they are resolved to.
-/

namespace CapacityExpansion.Temporal

namespace Tables

/-- The tables with the rows of some subproblems only. -/
def only (t : Tables) (kept : List Nat) : Tables where
  periods := t.periods
  subproblems := t.subproblems.filter (· ∈ kept)
  stages := t.stages.filter (·.subproblem ∈ kept)
  timepoints := t.timepoints.filter (·.subproblem ∈ kept)
  horizons := t.horizons.filter (·.subproblem ∈ kept)
  members := t.members.filter (·.subproblem ∈ kept)
  spans := t.spans.filter (·.subproblem ∈ kept)

/-- The tables with the rows of the first `k` subproblems only. -/
def firstSubproblems (t : Tables) (k : Nat) : Tables := t.only (t.subproblemsInOrder.take k)

/-- Some subproblems of the tables, and all subproblems before one of them. -/
structure Initial (t : Tables) (kept : List Nat) : Prop where
  ne_nil : kept ≠ []
  subset : kept ⊆ t.subproblems
  mem_of_lt : ∀ q ∈ t.subproblems, ∀ p ∈ kept, q < p → q ∈ kept

variable {t : Tables} {kept : List Nat} {p s τ k : Nat} {b : BalancingType} {hz : HorizonName}

/-! ## What is said of the subproblems kept -/

section Kept

variable (hp : p ∈ kept)
include hp

/-- Rows of a subproblem which is kept are all kept. -/
theorem filter_only {ρ : Type} (subproblem : ρ → Nat) (select : ρ → Bool) (rows : List ρ)
    (hselect : ∀ row, select row → subproblem row = p) :
    (rows.filter (subproblem · ∈ kept)).filter select = rows.filter select := by
  rw [List.filter_comm, List.filter_eq_self]
  intro row hrow
  exact decide_eq_true (hselect row (List.mem_filter.1 hrow).2 ▸ hp)

theorem stagesOf_only : (t.only kept).stagesOf p = t.stagesOf p := by
  have hrows : (t.only kept).stageRows p = t.stageRows p :=
    filter_only hp StageRow.subproblem _ _ fun row h => beq_iff_eq.1 h
  rw [stagesOf, stagesOf, hrows]

theorem timepointsOf_only : (t.only kept).timepointsOf p s = t.timepointsOf p s := by
  have hrows := filter_only hp TimepointRow.subproblem
    (fun row => row.subproblem == p && row.stage == s) t.timepoints fun row h => by
      rw [Bool.and_eq_true, beq_iff_eq] at h
      exact h.1
  exact congrArg _ (congrArg _ hrows)

theorem horizonsOf_only : (t.only kept).horizonsOf p b = t.horizonsOf p b :=
  filter_only hp HorizonRow.subproblem _ _ fun row h => by
    rw [Bool.and_eq_true, beq_iff_eq] at h
    exact h.1

theorem isTimepoint_only : (t.only kept).IsTimepoint p s τ ↔ t.IsTimepoint p s τ := by
  rw [isTimepoint_iff, isTimepoint_iff, timepointsOf_only hp]

theorem isHorizon_only : (t.only kept).IsHorizon p b hz ↔ t.IsHorizon p b hz := by
  rw [isHorizon_iff, isHorizon_iff, horizonsOf_only hp]

end Kept

/-! ## What is left -/

theorem mem_filter_kept {ρ : Type} {subproblem : ρ → Nat} {rows : List ρ} {row : ρ} :
    row ∈ rows.filter (subproblem · ∈ kept) ↔ row ∈ rows ∧ subproblem row ∈ kept := by
  rw [List.mem_filter, decide_eq_true_eq]

/-- The stages left are those of the subproblems kept. -/
theorem isStage_only : (t.only kept).IsStage p s ↔ t.IsStage p s ∧ p ∈ kept := by
  rw [isStage_iff, isStage_iff, only, mem_filter_kept]
  constructor
  · rintro ⟨⟨hp, hkept⟩, hs⟩
    exact ⟨⟨hp, stagesOf_only hkept ▸ hs⟩, hkept⟩
  · rintro ⟨⟨hp, hs⟩, hkept⟩
    exact ⟨⟨hp, hkept⟩, (stagesOf_only hkept).symm ▸ hs⟩

/-- Only subproblems which are kept put timepoints anywhere. -/
theorem mem_of_puts_only (hputs : (t.only kept).Puts p s b τ hz) : p ∈ kept := by
  cases hputs with
  | directly _ hmem => exact (mem_filter_kept.1 hmem).2
  | bySpan hmem => exact (mem_filter_kept.1 hmem).2

/-! ## The first of the subproblems -/

/-- Every subproblem of well-formed tables puts timepoints into horizons of every balancing type. -/
theorem WellFormed.exists_puts (ht : t.WellFormed) (hp : p ∈ t.subproblems)
    (hb : t.IsBalancingType b) : ∃ s τ hz, t.Puts p s b τ hz := by
  obtain ⟨s, hs⟩ := exists_isStage hp
  have hstaged := ht.staged p s hs
  obtain ⟨τ, hτ⟩ := hstaged.exists_timepoint
  obtain ⟨hz, hputs⟩ := (hstaged.split b hb).covered τ hτ
  exact ⟨s, τ, hz, hputs⟩

namespace Initial

theorem isPrevious_only (h : t.Initial kept) {q : Nat} (hp : p ∈ kept) :
    (t.only kept).IsPrevious q p ↔ t.IsPrevious q p := by
  have hmem : ∀ q, q ∈ (t.only kept).subproblems ↔ q ∈ t.subproblems ∧ q ∈ kept :=
    fun _ => mem_filter_kept
  simp only [IsPrevious, hmem]
  constructor
  · rintro ⟨⟨hq, -⟩, hlt, hlast⟩
    exact ⟨hq, hlt, fun r hr hrp => hlast r ⟨hr, h.mem_of_lt r hr p hp hrp⟩ hrp⟩
  · rintro ⟨hq, hlt, hlast⟩
    exact ⟨⟨hq, h.mem_of_lt q hq p hp hlt⟩, hlt, fun r hr => hlast r hr.1⟩

variable (h : t.Initial kept) (ht : t.WellFormed)
include h ht

theorem isBalancingType_only : (t.only kept).IsBalancingType b ↔ t.IsBalancingType b := by
  constructor
  · rintro ⟨row, hrow, e⟩
    exact ⟨row, (mem_filter_kept.1 hrow).1, e⟩
  · intro hb
    obtain ⟨p, hp⟩ := List.exists_mem_of_ne_nil _ h.ne_nil
    obtain ⟨s, τ, hz, hputs⟩ := ht.exists_puts (h.subset hp) hb
    obtain ⟨row, hrow, -, e, -⟩ := (isHorizon_only hp).2 (ht.assigned.isHorizon hputs)
    exact ⟨row, hrow, e⟩

/-- There are spans left if there are any. -/
theorem spans_only_eq_nil_iff : (t.only kept).spans = [] ↔ t.spans = [] := by
  constructor
  · intro hnil
    by_contra hne
    obtain ⟨row, hrow⟩ := List.exists_mem_of_ne_nil _ hne
    obtain ⟨-, -, -, -, hrow', hmem, -, e, -⟩ := ht.assigned.span row hrow
    obtain ⟨p, hp⟩ := List.exists_mem_of_ne_nil _ h.ne_nil
    -- A subproblem which is kept puts a timepoint into a horizon of the same balancing type.
    obtain ⟨s, τ, hz, hputs⟩ := ht.exists_puts (h.subset hp) ⟨hrow', hmem, e⟩
    cases hputs with
    | directly hnil' => exact hne hnil'
    | bySpan hspan =>
      exact List.eq_nil_iff_forall_not_mem.1 hnil _ (mem_filter_kept.2 ⟨hspan, hp⟩)
  · intro hnil
    rw [only, hnil, List.filter_nil]

theorem puts_only (hp : p ∈ kept) : (t.only kept).Puts p s b τ hz ↔ t.Puts p s b τ hz := by
  constructor
  · intro hputs
    cases hputs with
    | directly hnil hmem =>
      exact .directly ((h.spans_only_eq_nil_iff ht).1 hnil) (mem_filter_kept.1 hmem).1
    | bySpan hmem hτ hfirst hlast =>
      exact .bySpan (mem_filter_kept.1 hmem).1 ((isTimepoint_only hp).1 hτ) hfirst hlast
  · intro hputs
    cases hputs with
    | directly hnil hmem =>
      exact .directly ((h.spans_only_eq_nil_iff ht).2 hnil) (mem_filter_kept.2 ⟨hmem, hp⟩)
    | bySpan hmem hτ hfirst hlast =>
      exact .bySpan (mem_filter_kept.2 ⟨hmem, hp⟩) ((isTimepoint_only hp).2 hτ) hfirst hlast

/-! ## Well-formed tables -/

omit ht in
theorem wellDeclared (hd : t.WellDeclared) : (t.only kept).WellDeclared where
  periods_ne_nil := hd.periods_ne_nil
  nodup_periods := hd.nodup_periods
  positive_period := hd.positive_period
  subproblems_ne_nil := by
    obtain ⟨p, hp⟩ := List.exists_mem_of_ne_nil _ h.ne_nil
    exact List.ne_nil_of_mem (mem_filter_kept.2 ⟨h.subset hp, hp⟩)
  nodup_subproblems := hd.nodup_subproblems.filter _
  subproblem_of_stage row hrow := by
    obtain ⟨hrow, hkept⟩ := mem_filter_kept.1 hrow
    exact mem_filter_kept.2 ⟨hd.subproblem_of_stage row hrow, hkept⟩
  nodup_stages := hd.nodup_stages.sublist (List.filter_sublist.map _)
  stage_of_timepoint row hrow := by
    obtain ⟨hrow, hkept⟩ := mem_filter_kept.1 hrow
    exact isStage_only.2 ⟨hd.stage_of_timepoint row hrow, hkept⟩
  period_of_timepoint row hrow := hd.period_of_timepoint row (mem_filter_kept.1 hrow).1
  positive_timepoint row hrow := hd.positive_timepoint row (mem_filter_kept.1 hrow).1
  nodup_timepoints := hd.nodup_timepoints.sublist (List.filter_sublist.map _)
  subproblem_of_horizon row hrow := by
    obtain ⟨hrow, hkept⟩ := mem_filter_kept.1 hrow
    exact mem_filter_kept.2 ⟨hd.subproblem_of_horizon row hrow, hkept⟩
  nodup_horizons := hd.nodup_horizons.sublist (List.filter_sublist.map _)

theorem wellAssigned : (t.only kept).WellAssigned where
  member hnil row hrow := by
    obtain ⟨hrow, hkept⟩ := mem_filter_kept.1 hrow
    rw [isStage_only, isTimepoint_only hkept, isHorizon_only hkept, and_iff_left hkept]
    exact ht.assigned.member ((h.spans_only_eq_nil_iff ht).1 hnil) row hrow
  span row hrow := by
    obtain ⟨hrow, hkept⟩ := mem_filter_kept.1 hrow
    rw [isStage_only, isTimepoint_only hkept, isTimepoint_only hkept, isHorizon_only hkept,
      and_iff_left hkept]
    exact ht.assigned.span row hrow
  unique h₁ h₂ := by
    have hkept := mem_of_puts_only h₁
    exact ht.assigned.unique ((h.puts_only ht hkept).1 h₁) ((h.puts_only ht hkept).1 h₂)

theorem previous?_only (hp : p ∈ kept) : (t.only kept).previous? p = t.previous? p := by
  refine Option.ext fun q => ?_
  rw [previous?_eq_some_iff (h.wellDeclared ht.declared).nodup_subproblems,
    previous?_eq_some_iff ht.declared.nodup_subproblems, h.isPrevious_only hp]

/-- The tables say the same of the subproblems which are kept. -/
theorem agreeOn (hp : p ∈ kept) : t.AgreeOn (t.only kept) p where
  stagesOf_eq := (stagesOf_only hp).symm
  timepointsOf_eq _ := (timepointsOf_only hp).symm
  sourceOf_eq s := by
    rw [h.previous?_only ht hp]
    cases hq : t.previous? p with
    | none => rfl
    | some q =>
      -- The timepoints carried over are of an earlier subproblem, so they are kept as well.
      have hq := (previous?_eq_some_iff ht.declared.nodup_subproblems).1 hq
      rw [sourceOf, sourceOf, Option.map_some, Option.map_some,
        timepointsOf_only (h.mem_of_lt q hq.1 p hp hq.2.1)]
  horizonsOf_perm _ := .of_eq (horizonsOf_only hp).symm
  puts_iff _ _ _ _ := (h.puts_only ht hp).symm

theorem balancingTypes_perm : (t.only kept).balancingTypes.Perm t.balancingTypes :=
  (List.perm_ext_iff_of_nodup nodup_balancingTypes nodup_balancingTypes).2 fun b => by
    rw [mem_balancingTypes_iff, mem_balancingTypes_iff, h.isBalancingType_only ht]

/-- Cut off after some subproblem, tables stay well formed. -/
theorem wellFormed : (t.only kept).WellFormed where
  declared := h.wellDeclared ht.declared
  assigned := h.wellAssigned ht
  staged p s hs := by
    obtain ⟨hs, hp⟩ := isStage_only.1 hs
    exact (h.agreeOn ht hp).wellStaged ht.declared (h.wellDeclared ht.declared)
      (fun _ => (h.isBalancingType_only ht).1) (ht.staged p s hs)
  shared p s s' b τ hz hs hs' hputs := by
    obtain ⟨hs, hp⟩ := isStage_only.1 hs
    rw [h.puts_only ht hp] at hputs ⊢
    exact ht.shared p s s' b τ hz hs (isStage_only.1 hs').1 hputs

end Initial

/-! ## The first subproblems in order -/

section InOrder

variable (ht : t.WellDeclared)
include ht

theorem initial_take (hk : 0 < k) : t.Initial (t.subproblemsInOrder.take k) where
  ne_nil e := by
    obtain ⟨p, hp⟩ := List.exists_mem_of_ne_nil _ ht.subproblems_ne_nil
    rcases List.take_eq_nil_iff.1 e with rfl | e
    · exact absurd hk (Nat.lt_irrefl 0)
    · exact List.not_mem_nil (e ▸ mem_subproblemsInOrder.2 hp)
  subset p hp := mem_subproblemsInOrder.1 (List.mem_of_mem_take hp)
  mem_of_lt q hq p hp hlt := by
    -- The subproblems which are not taken come after all those which are.
    have hinc := increasing_subproblemsInOrder ht.nodup_subproblems
    rw [← mem_subproblemsInOrder] at hq
    rw [← List.take_append_drop k t.subproblemsInOrder] at hq hinc
    refine (List.mem_append.1 hq).resolve_right fun hdrop => ?_
    exact Nat.lt_asymm hlt ((List.pairwise_append.1 hinc).2.2 p hp q hdrop)

theorem subproblemsInOrder_firstSubproblems :
    (t.firstSubproblems k).subproblemsInOrder = t.subproblemsInOrder.take k := by
  have htake : Increasing id (t.subproblemsInOrder.take k) := List.Pairwise.sublist
    (List.take_sublist _ _) (increasing_subproblemsInOrder ht.nodup_subproblems)
  refine (increasing_subproblemsInOrder (ht.nodup_subproblems.filter _)).ext htake fun p => ?_
  rw [mem_subproblemsInOrder, firstSubproblems, only, mem_filter_kept]
  exact ⟨And.right, fun hp => ⟨mem_subproblemsInOrder.1 (List.mem_of_mem_take hp), hp⟩⟩

end InOrder

end Tables

open Tables

/-- Tables cut off after some subproblem are resolved if the tables are, to the hierarchy cut off
    there, but for the order of the timelines of each stage. -/
theorem resolve_firstSubproblems {t : Tables} {fragment k : Nat} {H : Hierarchy}
    (hok : (resolve fragment t).outcome = .ok H) (hk : 0 < k) :
    ∃ H', (resolve fragment (t.firstSubproblems k)).outcome = .ok H' ∧
      H'.Rearranges { H with subproblems := H.subproblems.take k } := by
  have ht := wellFormed_of_ok hok
  have hinitial := initial_take ht.declared hk
  have ht' : (t.firstSubproblems k).WellFormed := hinitial.wellFormed ht
  obtain ⟨H', hok'⟩ := ht'.exists_resolve fragment
  refine ⟨H', hok', ?_⟩
  obtain ⟨hd, rows, subs, hrows, hsubs, rfl⟩ := resolve_ok_iff.1 hok
  obtain ⟨hd', rows', subs', hrows', hsubs', rfl⟩ := resolve_ok_iff.1 hok'
  refine ⟨rfl, rfl, ?_⟩
  rw [subproblemsInOrder_firstSubproblems hd] at hsubs'
  refine forall₂_of_forall₂ (fun p sub' sub ⟨hp, hsub'⟩ hsub => ?_)
    ((List.forall₂_and_left _ _).2 ⟨fun _ hp => hp, hsubs'⟩) (List.forall₂_take k hsubs)
  obtain ⟨hid, hstages⟩ := resolveSubproblem_rearranges_of_agreeOn (hinitial.agreeOn ht hp).symm hd'
    (hinitial.wellAssigned ht) hd ht.assigned hrows' hrows (hinitial.balancingTypes_perm ht) hsub'
    hsub
  exact ⟨hid, hstages.imp fun _ _ hstage => hstage.1⟩

/-- Without the second day, the first one is resolved as it is with it. -/
theorem resolve_firstSubproblems_twoDays : ∃ H H', (resolve 1 twoDays).outcome = .ok H ∧
    (resolve 1 (twoDays.firstSubproblems 1)).outcome = .ok H' ∧
      H'.subproblems.map Subproblem.id = [1] ∧
      H'.Rearranges { H with subproblems := H.subproblems.take 1 } := by
  have hids : ((resolve 1 (twoDays.firstSubproblems 1)).outcome.map fun H' =>
      H'.subproblems.map Subproblem.id) = .ok [1] := by decide
  obtain ⟨H, hok, -⟩ := exists_resolve_twoDays
  obtain ⟨H', hok', hsame⟩ := resolve_firstSubproblems hok Nat.one_pos
  rw [hok'] at hids
  exact ⟨H, H', hok, hok', Except.ok.inj hids, hsame⟩

end CapacityExpansion.Temporal
