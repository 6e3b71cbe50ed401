import CapacityExpansion.Proofs.Temporal.Acceptance

/-!
# Links between subproblems

Only the first horizon of a balancing type can be linked, and only in a
subproblem which has a previous one. If some horizon of a stage is linked, the
stage is given the timepoints carried over from the same stage of the previous
subproblem, and going back from index 0 leads through all of them, one by one.

* `Tables.Settles`: how the boundary of a horizon is settled;
* `Stage.goBack`, `goBack_of_lt`, `goBack_of_le`: the way back;
* `resolve_linkage`: how the stages of a resolved hierarchy are linked.
-/

namespace CapacityExpansion.Temporal

open Tables

/-- Where the way back from index 0 is after `n` steps, unless it has come to its end. -/
def Stage.goBack (stage : Stage) : (n : Nat) → Except IndexOverflow (Option Adjacent)
  | 0 => .ok (some (.linked 0))
  | n + 1 => do
    match ← stage.goBack n with
    | some (.linked index) => stage.linkedPredecessor index
    | some (.timepoint _) => .ok none
    | none => .ok none

/-- The boundary of the horizon `hz` on the timeline `tl` of a stage of `p` is settled. -/
structure Tables.Settles (t : Tables) (p : Nat) (stage : Stage) (tl : Timeline) (hz : Horizon) :
    Prop where
  of_ne_linked : hz.declared ≠ .linked → hz.boundary = hz.declared
  linked_or_linear : hz.declared = .linked → hz.boundary = .linked ∨ hz.boundary = .linear
  linked_iff : hz.boundary = .linked ↔
    hz.declared = .linked ∧ hz ∈ tl.horizons.head? ∧ ∃ q ∈ t.subproblems, q < p
  first_iff : hz ∈ tl.horizons.head? ↔ ∃ τ ∈ hz.timepoints, ∀ tp ∈ stage.timepoints, τ ≤ tp.id

/-- A stage of `p` is linked to the same stage of the previous subproblem, and can be linked to from
    the next one. -/
structure Tables.Linkage (t : Tables) (H : Hierarchy) (p : Nat) (stage : Stage) : Prop where
  settles : ∀ tl ∈ stage.timelines, ∀ hz ∈ tl.horizons, t.Settles p stage tl hz
  linked_iff : stage.linkedPredecessors ≠ [] ↔
    ∃ tl ∈ stage.timelines, ∃ hz ∈ tl.horizons, hz.boundary = .linked
  predecessors : stage.linkedPredecessors ≠ [] → ∃ q source, t.IsPrevious q p ∧
    H.stage? q stage.id = some source ∧ stage.linkedPredecessors = source.linkedTimepoints
  countsDown : CountsDown stage.linkedTimepoints
  decreasing : stage.linkedTimepoints.Pairwise fun l m => m.timepoint.id < l.timepoint.id
  /-- The timepoints carried over are those with an index. -/
  mem_iff : ∀ l, l ∈ stage.linkedTimepoints ↔
    l.timepoint ∈ stage.timepoints ∧ l.timepoint.linkedIndex = some l.index
  goBack_of_lt : ∀ n < stage.linkedPredecessors.length,
    ∃ index : Int32, index.toInt = -(n : Int) ∧ stage.goBack n = .ok (some (.linked index))
  /-- The way back ends. -/
  goBack_of_le : ∀ n, 0 < n → stage.linkedPredecessors.length ≤ n →
    (∀ l ∈ stage.linkedPredecessors, l.index ≠ Int32.minValue) → stage.goBack n = .ok none
  /-- At the least index there is, the way back ends by looking for the index before it. -/
  goBack_of_minValue : ∀ n, stage.linkedPredecessors.length ≤ n →
    (∃ l ∈ stage.linkedPredecessors, l.index = Int32.minValue) → stage.goBack n = .error .below

variable {fragment p s n : Nat} {t : Tables} {H : Hierarchy} {stage : Stage} {b : BalancingType}
  {tl : Timeline} {hz : Horizon} {index : Int32}

/-! ## Boundaries -/

/-- There is a previous subproblem unless there is no smaller one. -/
theorem Tables.isSome_previous?_iff : (t.previous? p).isSome ↔ ∃ q ∈ t.subproblems, q < p := by
  have hmem (q : Nat) : q ∈ t.subproblemsInOrder.filter (· < p) ↔ q ∈ t.subproblems ∧ q < p := by
    rw [List.mem_filter, mem_subproblemsInOrder, decide_eq_true_eq]
  rw [previous?, List.getLast?_isSome]
  constructor
  · intro hne
    obtain ⟨q, hq⟩ := List.exists_mem_of_ne_nil _ hne
    exact ⟨q, (hmem q).1 hq⟩
  · rintro ⟨q, hq⟩
    exact List.ne_nil_of_mem ((hmem q).2 hq)

/-- Each boundary is settled with a view to whether its horizon is the first one. -/
theorem Tables.ResolvesTimeline.boundary_eq (h : t.ResolvesTimeline p s b tl)
    (ht : t.WellDeclared) (hmem : hz ∈ tl.horizons) :
    ∃ isFirst : Bool, (isFirst ↔ hz ∈ tl.horizons.head?) ∧
      hz.boundary = hz.declared.applied isFirst (t.previous? p).isSome := by
  have hsettled := h.settled
  have hnodup := h.nodup_names ht
  obtain ⟨first, rest, e⟩ := List.exists_cons_of_ne_nil (List.ne_nil_of_mem hmem)
  rw [e] at hmem hsettled hnodup ⊢
  -- The first horizon is settled as such, and all others alike.
  rw [Temporal.settled, settled_false, List.cons.injEq] at hsettled
  rcases List.mem_cons.1 hmem with rfl | hrest
  · exact ⟨true, by simp, congrArg Horizon.boundary hsettled.1⟩
  · refine ⟨false, ?_, ?_⟩
    · have hne : first ≠ hz := by
        rintro rfl
        exact (List.nodup_cons.1 hnodup).1 (List.mem_map_of_mem hrest)
      simp [hne]
    · rw [hsettled.2] at hrest
      obtain ⟨hz', -, rfl⟩ := List.mem_map.1 hrest
      rfl

theorem Tables.ResolvesTimeline.settles (h : t.ResolvesTimeline p stage.id b tl)
    (ht : t.WellDeclared) (hstage : t.ResolvesStage p stage) (hmem : hz ∈ tl.horizons) :
    t.Settles p stage tl hz := by
  obtain ⟨isFirst, hfirst, hboundary⟩ := h.boundary_eq ht hmem
  refine ⟨fun hd => ?_, fun hd => ?_, ?_, ?_⟩
  · rw [hboundary, applied_of_ne_linked hd]
  · rw [hboundary, hd, Boundary.applied]
    exact ite_eq_or_eq _ _ _
  · rw [← hfirst, ← isSome_previous?_iff, ← applied_eq_linked_iff, ← hboundary]
  · rw [h.mem_head?_iff ht hmem, hstage.timepoints]
    simp only [isTimepoint_iff, forall_exists_index, and_imp, forall_apply_eq_imp_iff₂]

/-! ## Stages -/

theorem anyLinked_iff {tls : List Timeline} : anyLinked tls ↔
    ∃ tl ∈ tls, ∃ hz ∈ tl.horizons, hz.boundary = .linked := by
  simp only [anyLinked, List.any_eq_true, beq_iff_eq]

/-- A linked horizon links to a previous subproblem which carries timepoints over. -/
theorem Tables.ResolvesStage.exists_previous (h : t.ResolvesStage p stage) (ht : t.WellDeclared)
    (htl : tl ∈ stage.timelines) (hmem : hz ∈ tl.horizons) (hb : hz.boundary = .linked) :
    ∃ q, t.previous? p = some q ∧ carriedOver (t.timepointsOf q stage.id) ≠ [] := by
  have hres := h.resolvesTimeline_of_mem htl
  obtain ⟨hd, hhead, hq⟩ := (hres.settles ht h hmem).linked_iff.1 hb
  obtain ⟨q, hq⟩ := Option.isSome_iff_exists.1 (isSome_previous?_iff.2 hq)
  exact ⟨q, hq, hres.linkable hz hhead hd q hq⟩

/-- The timepoints given to a stage are those of the previous subproblem. -/
theorem Tables.ResolvesStage.linkedPredecessors_eq (h : t.ResolvesStage p stage)
    (hne : stage.linkedPredecessors ≠ []) : anyLinked stage.timelines ∧
      ∃ q, t.previous? p = some q ∧
        stage.linkedPredecessors = carriedOver (t.timepointsOf q stage.id) := by
  rw [h.linkedPredecessors] at hne ⊢
  split_ifs at hne ⊢ with hlinked
  · refine ⟨hlinked, ?_⟩
    cases hq : t.previous? p with
    | none => rw [hq] at hne; exact absurd rfl hne
    | some q => exact ⟨q, rfl, rfl⟩
  · exact absurd rfl hne

/-- A stage is given timepoints if and only if it has a linked horizon. -/
theorem Tables.ResolvesStage.linkedPredecessors_ne_nil_iff (h : t.ResolvesStage p stage)
    (ht : t.WellDeclared) : stage.linkedPredecessors ≠ [] ↔
      ∃ tl ∈ stage.timelines, ∃ hz ∈ tl.horizons, hz.boundary = .linked := by
  rw [← anyLinked_iff]
  refine ⟨fun hne => (h.linkedPredecessors_eq hne).1, fun hlinked => ?_⟩
  obtain ⟨tl, htl, hz, hmem, hb⟩ := anyLinked_iff.1 hlinked
  obtain ⟨q, hq, hne⟩ := h.exists_previous ht htl hmem hb
  rw [h.linkedPredecessors, if_pos hlinked, hq]
  exact hne

/-- The timepoints given to a stage are those which the same stage of the previous subproblem
    carries over. -/
theorem Tables.Resolves.exists_source (h : t.Resolves H) (hmem : (p, stage) ∈ H.stages)
    (hne : stage.linkedPredecessors ≠ []) : ∃ q source, t.IsPrevious q p ∧
      H.stage? q stage.id = some source ∧
        stage.linkedPredecessors = source.linkedTimepoints := by
  obtain ⟨-, q, hq, e⟩ := (h.of_mem_stages hmem).2.linkedPredecessors_eq hne
  rw [e] at hne ⊢
  -- There is something to carry over, so the previous subproblem has the stage.
  obtain ⟨l, hl⟩ := List.exists_mem_of_ne_nil _ hne
  have hstage : t.IsStage q stage.id := isStage_of_isTimepoint h.declared
    (isTimepoint_iff.2 ⟨_, (mem_carriedOver_iff.1 hl).1, rfl⟩)
  obtain ⟨source, hsource, hid⟩ := h.exists_stage hstage
  have hres := (h.of_mem_stages hsource).2
  refine ⟨q, source, (previous?_eq_some_iff h.declared.nodup_subproblems).1 hq,
    h.stage?_eq_some_iff.2 ⟨hsource, hid⟩, ?_⟩
  rw [hres.linkedTimepoints, hres.timepoints, hid]

/-! ## The way back -/

theorem exists_indexBefore (h : index ≠ Int32.minValue) :
    ∃ before : Int32, before.toInt = index.toInt - 1 ∧ indexBefore index = .ok before := by
  have hlow := index.le_toInt
  have hhigh := index.toInt_lt
  rw [Ne, ← Int32.toInt_inj, Int32.toInt_minValue] at h
  refine ⟨index - 1, ?_, if_neg fun e => h (by rw [e, Int32.toInt_minValue])⟩
  rw [Int32.toInt_sub, Int32.toInt_one, Int.bmod_eq_of_le (by omega) (by omega)]

/-- How the way back ends: with nothing, unless there is no index before the earliest one. -/
def Stage.backEnd (stage : Stage) : Except IndexOverflow (Option Adjacent) :=
  match stage.linkedPredecessors.getLast? with
  | none => .ok none
  | some earliest => (indexBefore earliest.index).map fun _ => none

/-- The way back ends with nothing unless some index is the least there is. -/
theorem backEnd_eq_ok (hne : ∀ l ∈ stage.linkedPredecessors, l.index ≠ Int32.minValue) :
    stage.backEnd = .ok none := by
  unfold Stage.backEnd
  cases e : stage.linkedPredecessors.getLast? with
  | none => rfl
  | some earliest =>
    obtain ⟨before, -, hok⟩ := exists_indexBefore (hne earliest (List.mem_of_getLast? e))
    simp only [hok]
    rfl

section GoBack

variable (h : CountsDown stage.linkedPredecessors)
include h

/-- Before the end of the way back, each index leads to the one before. -/
theorem linkedPredecessor_of_lt (hi : index.toInt = -(n : Int))
    (hn : n + 1 < stage.linkedPredecessors.length) : ∃ before : Int32,
      before.toInt = -((n + 1 : Nat) : Int) ∧
        stage.linkedPredecessor index = .ok (some (.linked before)) := by
  have hlength := h.length_le
  have hlt : stage.linkedPredecessors.length - 1 < stage.linkedPredecessors.length := by omega
  have hlast := h.toInt_getElem hlt
  have hne : index ≠ Int32.minValue := by
    rintro rfl
    rw [Int32.toInt_minValue] at hi
    omega
  obtain ⟨before, hbefore, hok⟩ := exists_indexBefore hne
  refine ⟨before, by push_cast; omega, ?_⟩
  have hin : (stage.linkedPredecessors[stage.linkedPredecessors.length - 1]).index < index ∧
      index ≤ 0 := by
    rw [Int32.lt_iff_toInt_lt, Int32.le_iff_toInt_le, Int32.toInt_zero]
    omega
  rw [Stage.linkedPredecessor, List.getLast?_eq_getElem?, List.getElem?_eq_getElem hlt]
  simp only [hok, if_pos hin]
  rfl

/-- The earliest timepoint carried over has none before it. -/
theorem linkedPredecessor_of_eq (hi : index.toInt = -(n : Int))
    (hn : n + 1 = stage.linkedPredecessors.length) :
    stage.linkedPredecessor index = stage.backEnd := by
  have hlt : n < stage.linkedPredecessors.length := by omega
  have hindex : stage.linkedPredecessors[n].index = index := by
    rw [← Int32.toInt_inj, h.toInt_getElem hlt, hi]
  rw [Stage.linkedPredecessor, Stage.backEnd, List.getLast?_eq_getElem?,
    show stage.linkedPredecessors.length - 1 = n by omega, List.getElem?_eq_getElem hlt]
  simp only [hindex, Int32.lt_irrefl, false_and, if_false]
  cases indexBefore index <;> rfl

/-- The way back goes through the timepoints carried over. -/
theorem goBack_of_lt (hn : n < stage.linkedPredecessors.length) :
    ∃ index : Int32, index.toInt = -(n : Int) ∧ stage.goBack n = .ok (some (.linked index)) := by
  induction n with
  | zero => exact ⟨0, Int32.toInt_zero, rfl⟩
  | succ n ih =>
    obtain ⟨index, hi, hback⟩ := ih (by omega)
    obtain ⟨before, hbefore, hok⟩ := linkedPredecessor_of_lt h hi hn
    refine ⟨before, hbefore, ?_⟩
    rw [Stage.goBack, hback]
    exact hok

/-- The way back ends after the timepoints carried over. -/
theorem goBack_of_le (hpos : 0 < n) (hn : stage.linkedPredecessors.length ≤ n) :
    stage.goBack n = stage.backEnd := by
  induction n with
  | zero => exact absurd hpos (Nat.lt_irrefl 0)
  | succ n ih =>
    rw [Stage.goBack]
    rcases Nat.lt_or_ge n stage.linkedPredecessors.length with hlt | hge
    · obtain ⟨index, hi, hback⟩ := goBack_of_lt h hlt
      rw [hback, ← linkedPredecessor_of_eq h hi (by omega)]
      rfl
    · rcases Nat.eq_zero_or_pos n with rfl | hpos
      · -- Nothing is carried over, so there is nothing before index 0 either.
        have hnil := List.length_eq_zero_iff.1 (Nat.le_zero.1 hge)
        change stage.linkedPredecessor 0 = _
        rw [Stage.linkedPredecessor, Stage.backEnd, hnil]
        rfl
      · rw [ih hpos hge, Stage.backEnd]
        cases stage.linkedPredecessors.getLast? with
        | none => rfl
        | some earliest =>
          dsimp only
          cases indexBefore earliest.index <;> rfl

/-- If some index is the least there is, it is the earliest one. -/
theorem backEnd_eq_error (hmin : ∃ l ∈ stage.linkedPredecessors, l.index = Int32.minValue) :
    stage.backEnd = .error .below := by
  obtain ⟨l, hl, hmin⟩ := hmin
  obtain ⟨n, hn, rfl⟩ := List.getElem_of_mem hl
  have hindex := h.toInt_getElem hn
  rw [hmin, Int32.toInt_minValue] at hindex
  have hlength := h.length_le
  have e : stage.linkedPredecessors.length - 1 = n := by omega
  rw [Stage.backEnd, List.getLast?_eq_getElem?, e, List.getElem?_eq_getElem hn]
  simp only [hmin]
  rfl

end GoBack

/-! ## Hierarchies -/

/-- The stages of a resolved hierarchy are linked from one subproblem to the next. -/
theorem resolve_linkage (hok : (resolve fragment t).outcome = .ok H)
    (hmem : (p, stage) ∈ H.stages) : t.Linkage H p stage := by
  have hres := resolves_of_ok hok
  have ht := hres.declared
  have hstage := (hres.of_mem_stages hmem).2
  have hinc := increasing_timepointsOf (p := p) (s := stage.id) ht.nodup_timepoints
  rw [← hstage.timepoints] at hinc
  have hcounts : ∀ {q s}, (q, s) ∈ H.stages → CountsDown s.linkedTimepoints := by
    intro q s hs
    have hres' := (hres.of_mem_stages hs).2
    have hindices := hres'.indices
    rw [indicesOf, ← hres'.timepoints] at hindices
    rw [hres'.linkedTimepoints]
    exact countsDown_carriedOver hindices
  have hpredecessors : CountsDown stage.linkedPredecessors := by
    by_cases hne : stage.linkedPredecessors = []
    · rw [hne]
      rfl
    · obtain ⟨q, source, -, hsource, e⟩ := hres.exists_source hmem hne
      rw [e]
      exact hcounts (hres.stage?_eq_some_iff.1 hsource).1
  refine ⟨fun tl htl hz hhz => (hstage.resolvesTimeline_of_mem htl).settles ht hstage hhz,
    hstage.linkedPredecessors_ne_nil_iff ht, hres.exists_source hmem, hcounts hmem, ?_, fun l => ?_,
    fun n => goBack_of_lt hpredecessors, fun n hpos hn hne => ?_, fun n hn hmin => ?_⟩
  · rw [hstage.linkedTimepoints]
    exact pairwise_carriedOver hinc
  · rw [hstage.linkedTimepoints]
    exact mem_carriedOver_iff
  · rw [goBack_of_le hpredecessors hpos hn, backEnd_eq_ok hne]
  · have hpos : 0 < n := by
      obtain ⟨l, hl, -⟩ := hmin
      exact Nat.lt_of_lt_of_le (List.length_pos_of_mem hl) hn
    rw [goBack_of_le hpredecessors hpos hn, backEnd_eq_error hpredecessors hmin]

/-- The second day is linked to the first one. -/
theorem resolve_linkage_twoDays : ∃ H stage, (resolve 1 twoDays).outcome = .ok H ∧
    (2, stage) ∈ H.stages ∧ twoDays.Linkage H 2 stage := by
  obtain ⟨H, hok, stage, hmem⟩ := exists_resolve_twoDays
  exact ⟨H, stage, hok, hmem, resolve_linkage hok hmem⟩

end CapacityExpansion.Temporal
