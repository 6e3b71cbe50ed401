import CapacityExpansion.Proofs.Temporal.Declarations
import CapacityExpansion.Temporal.Membership

/-!
# The rows in use

The rows which put timepoints into horizons are collected one after the other,
each checked against those before it: a row of a single timepoint stands for
itself, a span for the timepoints of its stage from its first to its last. What
is collected is *consistent* all along: no timepoint is in two horizons of a
balancing type.

* `membership_ok_iff`: rows are collected if and only if they fit together;
* `horizonAmong_eq_some_iff`: they then put a timepoint into the horizon into
  which the tables put it, and into no other one.
-/

namespace CapacityExpansion.Temporal

/-! ## Consistent rows -/

section Consistent

variable {rows rows' : List MemberRow} {p s τ : Nat} {b : BalancingType} {h : HorizonName}

/-- No timepoint is in two horizons of a balancing type. -/
def Consistent (rows : List MemberRow) : Prop :=
  ∀ ⦃p s τ b h h'⦄, ⟨p, s, τ, b, h⟩ ∈ rows → ⟨p, s, τ, b, h'⟩ ∈ rows → h = h'

theorem Consistent.of_append (hrows : Consistent (rows ++ rows')) : Consistent rows :=
  fun _ _ _ _ _ _ ha hc => hrows (List.mem_append_left _ ha) (List.mem_append_left _ hc)

theorem mem_of_horizonAmong (e : horizonAmong rows p s b τ = some h) : ⟨p, s, τ, b, h⟩ ∈ rows := by
  obtain ⟨⟨p', s', τ', b', h'⟩, hfind, rfl⟩ := Option.map_eq_some_iff.1 e
  have hkey := List.find?_some hfind
  simp only [Bool.and_eq_true, beq_iff_eq] at hkey
  obtain ⟨⟨⟨rfl, rfl⟩, rfl⟩, rfl⟩ := hkey
  exact List.mem_of_find?_eq_some hfind

theorem horizonAmong_eq_none_iff :
    horizonAmong rows p s b τ = none ↔ ∀ h, ⟨p, s, τ, b, h⟩ ∉ rows := by
  constructor
  · intro e h hmem
    rw [horizonAmong, Option.map_eq_none_iff, List.find?_eq_none] at e
    exact e _ hmem (by simp)
  · intro hnone
    cases e : horizonAmong rows p s b τ with
    | none => rfl
    | some h => exact absurd (mem_of_horizonAmong e) (hnone h)

/-- Consistent rows put a timepoint into a horizon if and only if some row does. -/
theorem Consistent.horizonAmong_iff (hrows : Consistent rows) :
    horizonAmong rows p s b τ = some h ↔ ⟨p, s, τ, b, h⟩ ∈ rows := by
  refine ⟨mem_of_horizonAmong, fun hmem => ?_⟩
  cases e : horizonAmong rows p s b τ with
  | none => exact absurd hmem (horizonAmong_eq_none_iff.1 e h)
  | some h' => rw [hrows hmem (mem_of_horizonAmong e)]

/-- Consistent rows stay so with a further one unless they put its timepoint elsewhere. -/
theorem consistent_concat_iff (hrows : Consistent rows) :
    Consistent (rows ++ [⟨p, s, τ, b, h⟩]) ↔
      ∀ h', horizonAmong rows p s b τ = some h' → h' = h := by
  simp only [hrows.horizonAmong_iff]
  constructor
  · intro hall h' hmem
    exact hall (List.mem_append_left _ hmem) (List.mem_append_right _ (List.mem_singleton_self _))
  · intro hnew p' s' τ' b' h₁ h₂ hmem₁ hmem₂
    rw [List.mem_append, List.mem_singleton] at hmem₁ hmem₂
    -- Only where one of the rows is the further one there is something to show.
    rcases hmem₁ with hmem₁ | e₁ <;> rcases hmem₂ with hmem₂ | e₂
    · exact hrows hmem₁ hmem₂
    · cases e₂
      exact hnew _ hmem₁
    · cases e₁
      exact (hnew _ hmem₂).symm
    · cases e₁
      cases e₂
      rfl

end Consistent

namespace Tables

variable {t : Tables} {place : Location} {ρ : Type} {rows out : List MemberRow}

/-! ## Collecting rows -/

/-- A row is added to consistent ones if and only if its horizon is declared and they stay
    consistent. -/
theorem addMember_ok_iff (hrows : Consistent rows) {row : MemberRow} :
    t.addMember place rows row = .ok out ↔ out = rows ++ [row] ∧
      t.IsHorizon row.subproblem row.balancingType row.horizon ∧ Consistent (rows ++ [row]) := by
  have hcheck : t.checkMember place rows row = .ok () ↔
      t.IsHorizon row.subproblem row.balancingType row.horizon ∧ Consistent (rows ++ [row]) := by
    rw [checkMember, seq_ok_iff, require_ok_iff, hasHorizon_iff]
    refine and_congr_right fun _ => ?_
    rw [consistent_concat_iff hrows]
    cases horizonAmong rows row.subproblem row.stage row.balancingType row.timepoint with
    | none => exact iff_of_true rfl nofun
    | some first => simp only [require_ok_iff, Option.some.injEq, forall_eq']
  rw [addMember, seq_ok_iff, pure_ok_iff, hcheck, and_comm, eq_comm]

/-- Rows are added to consistent ones if and only if their horizons are declared and all rows
    together are consistent. -/
theorem addMembers_ok_iff (hrows : Consistent rows) {more : List MemberRow} :
    more.foldlM (t.addMember place) rows = .ok out ↔ out = rows ++ more ∧
      (∀ row ∈ more, t.IsHorizon row.subproblem row.balancingType row.horizon) ∧
      Consistent (rows ++ more) := by
  induction more generalizing rows with
  | nil =>
    rw [List.foldlM_nil, pure_ok_iff, eq_comm]
    simp [hrows]
  | cons row more ih =>
    rw [List.foldlM_cons, bind_ok_iff, List.forall_mem_cons, List.append_cons]
    constructor
    · rintro ⟨rows', hadd, hmore⟩
      obtain ⟨rfl, hrow, hconcat⟩ := (addMember_ok_iff hrows).1 hadd
      obtain ⟨rfl, hrest, hall⟩ := (ih hconcat).1 hmore
      exact ⟨rfl, ⟨hrow, hrest⟩, hall⟩
    · rintro ⟨rfl, ⟨hrow, hrest⟩, hall⟩
      exact ⟨_, (addMember_ok_iff hrows).2 ⟨rfl, hrow, hall.of_append⟩,
        (ih hall.of_append).2 ⟨rfl, hrest, hall⟩⟩

/-- Rows of either kind are collected if and only if each fits, and what they stand for is
    consistent and names declared horizons. -/
theorem collectMembers_ok_iff {rowsOf : ρ → Except Fault (List MemberRow)} {Fits : ρ → Prop}
    {expand : ρ → List MemberRow}
    (hrowsOf : ∀ r l, rowsOf r = .ok l ↔ Fits r ∧ l = expand r) {rs : List ρ} :
    t.collectMembers place rowsOf rs = .ok out ↔ out = rs.flatMap expand ∧ (∀ r ∈ rs, Fits r) ∧
      (∀ row ∈ rs.flatMap expand, t.IsHorizon row.subproblem row.balancingType row.horizon) ∧
      Consistent (rs.flatMap expand) := by
  suffices hfrom : ∀ rows, Consistent rows →
      (rs.foldlM (fun soFar r => do (← rowsOf r).foldlM (t.addMember place) soFar) rows = .ok out ↔
        out = rows ++ rs.flatMap expand ∧ (∀ r ∈ rs, Fits r) ∧
        (∀ row ∈ rs.flatMap expand, t.IsHorizon row.subproblem row.balancingType row.horizon) ∧
        Consistent (rows ++ rs.flatMap expand)) from
    hfrom [] fun _ _ _ _ _ _ hmem => absurd hmem List.not_mem_nil
  induction rs with
  | nil =>
    intro rows hrows
    rw [List.foldlM_nil, pure_ok_iff, eq_comm]
    simp [hrows]
  | cons r rs ih =>
    intro rows hrows
    simp only [List.foldlM_cons, bind_ok_iff, hrowsOf, List.flatMap_cons, List.forall_mem_cons,
      List.forall_mem_append, ← List.append_assoc]
    constructor
    · rintro ⟨rows', ⟨_, ⟨hfits, rfl⟩, hadd⟩, hrest⟩
      obtain ⟨rfl, hnew, hconcat⟩ := (addMembers_ok_iff hrows).1 hadd
      obtain ⟨rfl, hfit, hmore, hall⟩ := (ih _ hconcat).1 hrest
      exact ⟨rfl, ⟨hfits, hfit⟩, ⟨hnew, hmore⟩, hall⟩
    · rintro ⟨rfl, ⟨hfits, hfit⟩, ⟨hnew, hmore⟩, hall⟩
      exact ⟨_, ⟨_, ⟨hfits, rfl⟩, (addMembers_ok_iff hrows).2 ⟨rfl, hnew, hall.of_append⟩⟩,
        (ih _ hall.of_append).2 ⟨rfl, hfit, hmore, hall⟩⟩

/-! ## Rows of either kind -/

theorem checkStageOf_ok_iff {p s : Nat} : t.checkStageOf place p s = .ok () ↔ t.IsStage p s := by
  rw [checkStageOf, seq_ok_iff, require_ok_iff, require_ok_iff]
  exact ⟨fun h => (hasStage_iff h.1).1 h.2, fun h => ⟨h.1, (hasStage_iff h.1).2 h⟩⟩

theorem mem_timepoints_iff {p s τ : Nat} :
    τ ∈ (t.timepointsOf p s).map Timepoint.id ↔ t.IsTimepoint p s τ := by
  rw [isTimepoint_iff, List.mem_map]

theorem rowsOfMember_ok_iff {row : MemberRow} :
    t.rowsOfMember place row = .ok out ↔
      (t.IsStage row.subproblem row.stage ∧
        t.IsTimepoint row.subproblem row.stage row.timepoint) ∧ out = [row] := by
  rw [rowsOfMember, seq_ok_iff, seq_ok_iff, checkStageOf_ok_iff, require_ok_iff,
    mem_timepoints_iff, pure_ok_iff, and_assoc, eq_comm]

theorem positionOf_ok_iff {timepoints : List Nat} {τ i : Nat} :
    positionOf place timepoints τ = .ok i ↔ τ ∈ timepoints ∧ i = timepoints.idxOf τ := by
  unfold positionOf
  split
  · next h => simp [h, eq_comm]
  · next h => simp [h]

/-- The rows a span stands for: one for each timepoint of its stage between its ends. -/
def expansion (t : Tables) (row : SpanRow) : List MemberRow :=
  let timepoints := (t.timepointsOf row.subproblem row.stage).map Timepoint.id
  let first := timepoints.idxOf row.first
  ((timepoints.drop first).take (timepoints.idxOf row.last - first + 1)).map fun timepoint =>
    ⟨row.subproblem, row.stage, timepoint, row.balancingType, row.horizon⟩

/-- A span fits if its ends are timepoints of its stage in this order. -/
def SpanFits (t : Tables) (row : SpanRow) : Prop :=
  t.IsStage row.subproblem row.stage ∧ t.IsTimepoint row.subproblem row.stage row.first ∧
    t.IsTimepoint row.subproblem row.stage row.last ∧ row.first ≤ row.last

theorem increasing_timepoints (ht : t.WellDeclared) (p s : Nat) :
    Increasing id ((t.timepointsOf p s).map Timepoint.id) :=
  List.pairwise_map.2 (increasing_timepointsOf ht.nodup_timepoints)

theorem rowsOfSpan_ok_iff (ht : t.WellDeclared) {row : SpanRow} :
    t.rowsOfSpan place row = .ok out ↔ t.SpanFits row ∧ out = t.expansion row := by
  have hinc := increasing_timepoints ht row.subproblem row.stage
  rw [rowsOfSpan, seq_ok_iff, checkStageOf_ok_iff]
  simp only [bind_ok_iff, ↓seq_ok_iff, positionOf_ok_iff, require_ok_iff, pure_ok_iff,
    mem_timepoints_iff, SpanFits, expansion]
  constructor
  · rintro ⟨hstage, _, ⟨hfirst, rfl⟩, _, ⟨hlast, rfl⟩, hle, rfl⟩
    rw [idxOf_le_idxOf_iff hinc (mem_timepoints_iff.2 hfirst) (mem_timepoints_iff.2 hlast)] at hle
    exact ⟨⟨hstage, hfirst, hlast, hle⟩, rfl⟩
  · rintro ⟨⟨hstage, hfirst, hlast, hle⟩, rfl⟩
    rw [← idxOf_le_idxOf_iff hinc (mem_timepoints_iff.2 hfirst) (mem_timepoints_iff.2 hlast)] at hle
    exact ⟨hstage, _, ⟨hfirst, rfl⟩, _, ⟨hlast, rfl⟩, hle, rfl⟩

theorem mem_expansion_iff (ht : t.WellDeclared) {row : SpanRow} (hrow : t.SpanFits row)
    {p s τ : Nat} {b : BalancingType} {h : HorizonName} :
    ⟨p, s, τ, b, h⟩ ∈ t.expansion row ↔ row = ⟨p, s, b, h, row.first, row.last⟩ ∧
      t.IsTimepoint p s τ ∧ row.first ≤ τ ∧ τ ≤ row.last := by
  obtain ⟨-, hfirst, hlast, hle⟩ := hrow
  rw [expansion, List.mem_map]
  simp only [mem_slice_iff (increasing_timepoints ht _ _) (mem_timepoints_iff.2 hfirst)
    (mem_timepoints_iff.2 hlast) hle, mem_timepoints_iff]
  constructor
  · rintro ⟨_, hτ, e⟩
    cases e
    exact ⟨rfl, hτ⟩
  · rintro ⟨e, hτ⟩
    obtain ⟨_, _, _, _, _, _⟩ := row
    cases e
    exact ⟨τ, hτ, rfl⟩

/-! ## The rows in use -/

/-- What all rows in use stand for. -/
def expanded (t : Tables) : List MemberRow :=
  if t.spans = [] then t.members else t.spans.flatMap t.expansion

/-- Every row in use fits. -/
def RowsFit (t : Tables) : Prop :=
  if t.spans = [] then ∀ row ∈ t.members, t.IsStage row.subproblem row.stage ∧
    t.IsTimepoint row.subproblem row.stage row.timepoint
  else ∀ row ∈ t.spans, t.SpanFits row

theorem membership_ok_iff_expanded (ht : t.WellDeclared) :
    t.membership place = .ok out ↔ out = t.expanded ∧ t.RowsFit ∧
      (∀ row ∈ t.expanded, t.IsHorizon row.subproblem row.balancingType row.horizon) ∧
      Consistent t.expanded := by
  unfold membership expanded RowsFit
  split
  · next hnil =>
    have hself : t.members.flatMap (fun row => [row]) = t.members := List.flatMap_singleton' _
    rw [if_pos hnil, if_pos hnil, collectMembers_ok_iff fun _ _ => rowsOfMember_ok_iff, hself]
  · next hne =>
    rw [if_neg hne, if_neg hne, collectMembers_ok_iff fun _ _ => rowsOfSpan_ok_iff ht]

/-- What the rows stand for puts timepoints where the tables put them. -/
theorem mem_expanded_iff (ht : t.WellDeclared) (hfit : t.RowsFit) {p s τ : Nat}
    {b : BalancingType} {h : HorizonName} :
    ⟨p, s, τ, b, h⟩ ∈ t.expanded ↔ t.Puts p s b τ h := by
  unfold expanded RowsFit at *
  split at hfit
  · next hnil =>
    rw [if_pos hnil]
    refine ⟨fun hmem => .directly hnil hmem, fun hputs => ?_⟩
    cases hputs with
    | directly _ hmem => exact hmem
    | bySpan hmem => exact absurd (hnil ▸ hmem) List.not_mem_nil
  · next hne =>
    rw [if_neg hne, List.mem_flatMap]
    constructor
    · rintro ⟨row, hrow, hmem⟩
      obtain ⟨e, hτ, hfirst, hlast⟩ := (mem_expansion_iff ht (hfit row hrow)).1 hmem
      exact .bySpan (e ▸ hrow) hτ hfirst hlast
    · intro hputs
      cases hputs with
      | directly hnil => exact absurd hnil hne
      | bySpan hrow hτ hfirst hlast =>
        exact ⟨_, hrow, (mem_expansion_iff ht (hfit _ hrow)).2 ⟨rfl, hτ, hfirst, hlast⟩⟩

section Assigned

variable {p s τ : Nat} {b : BalancingType} {h : HorizonName}

theorem WellAssigned.isTimepoint (ha : t.WellAssigned) (hputs : t.Puts p s b τ h) :
    t.IsTimepoint p s τ := by
  cases hputs with
  | directly hnil hmem => exact (ha.member hnil _ hmem).2.1
  | bySpan _ hτ => exact hτ

theorem WellAssigned.isHorizon (ha : t.WellAssigned) (hputs : t.Puts p s b τ h) :
    t.IsHorizon p b h := by
  cases hputs with
  | directly hnil hmem => exact (ha.member hnil _ hmem).2.2
  | bySpan hmem => exact (ha.span _ hmem).2.2.2.2

theorem isStage_of_isTimepoint (ht : t.WellDeclared) (hτ : t.IsTimepoint p s τ) :
    t.IsStage p s := by
  obtain ⟨row, hmem, rfl, rfl, -⟩ := hτ
  exact ht.stage_of_timepoint row hmem

/-- Rows are collected if and only if they fit together. -/
theorem membership_ok_iff (ht : t.WellDeclared) :
    (∃ rows, t.membership place = .ok rows) ↔ t.WellAssigned := by
  simp only [membership_ok_iff_expanded ht, exists_eq_left]
  constructor
  · rintro ⟨hfit, hhorizon, hcons⟩
    have hmem : ∀ {p s τ b h}, t.Puts p s b τ h → ⟨p, s, τ, b, h⟩ ∈ t.expanded :=
      (mem_expanded_iff ht hfit).2
    refine ⟨fun hnil row hrow => ?_, fun row hrow => ?_, fun h₁ h₂ => hcons (hmem h₁) (hmem h₂)⟩
    · rw [RowsFit, if_pos hnil] at hfit
      obtain ⟨hstage, hτ⟩ := hfit row hrow
      exact ⟨hstage, hτ, hhorizon _ (hmem (.directly hnil hrow))⟩
    · rw [RowsFit, if_neg (List.ne_nil_of_mem hrow)] at hfit
      obtain ⟨hstage, hfirst, hlast, hle⟩ := hfit row hrow
      -- A span is never empty, so the horizon is declared for the sake of its first timepoint.
      exact ⟨hstage, hfirst, hlast, hle,
        hhorizon _ (hmem (.bySpan hrow hfirst (Nat.le_refl _) hle))⟩
  · intro ha
    have hfit : t.RowsFit := by
      unfold RowsFit
      split
      · next hnil =>
        intro row hrow
        obtain ⟨hstage, hτ, -⟩ := ha.member hnil row hrow
        exact ⟨hstage, hτ⟩
      · next hne =>
        intro row hrow
        obtain ⟨hstage, hfirst, hlast, hle, -⟩ := ha.span row hrow
        exact ⟨hstage, hfirst, hlast, hle⟩
    refine ⟨hfit, fun row hrow => ?_, fun _ _ _ _ _ _ h₁ h₂ => ?_⟩
    · exact ha.isHorizon ((mem_expanded_iff ht hfit).1 hrow)
    · exact ha.unique ((mem_expanded_iff ht hfit).1 h₁) ((mem_expanded_iff ht hfit).1 h₂)

/-- The rows in use put a timepoint into the horizon into which the tables put it. -/
theorem horizonAmong_eq_some_iff (ht : t.WellDeclared) (hrows : t.membership place = .ok rows) :
    horizonAmong rows p s b τ = some h ↔ t.Puts p s b τ h := by
  obtain ⟨rfl, hfit, -, hcons⟩ := (membership_ok_iff_expanded ht).1 hrows
  rw [hcons.horizonAmong_iff, mem_expanded_iff ht hfit]

end Assigned

end Tables

end CapacityExpansion.Temporal
