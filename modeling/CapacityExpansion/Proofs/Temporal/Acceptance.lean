import CapacityExpansion.Proofs.Temporal.Resolved

/-!
# Which tables are resolved

Temporal tables are resolved if and only if they are well formed. Level by level:
a balancing type of a stage gets a timeline if and only if it splits the
timepoints, a stage is resolved if and only if all balancing types do, and the
stages of a subproblem have the same horizons if and only if timepoints are put
into the same ones.

* `exists_resolveTimeline_iff`, `exists_resolveStage_iff`: timelines and stages;
* `exists_resolveSubproblems_iff`: the subproblems;
* `resolve_accepts_iff`: tables.
-/

namespace CapacityExpansion.Temporal

open Tables

variable {place place' : Location} {t : Tables} {rows : List MemberRow} {p s : Nat}
  {b : BalancingType}

/-! ## Timelines -/

section Timelines

variable (ht : t.WellDeclared) (ha : t.WellAssigned) (hrows : t.membership place = .ok rows)
include ht ha hrows

/-- A horizon has members if and only if some timepoint is put into it. -/
theorem membersOf_ne_nil_iff {h : HorizonName} :
    membersOf (horizonAmong rows p s b) (t.timepointsOf p s) h ≠ [] ↔ ∃ τ, t.Puts p s b τ h := by
  constructor
  · intro hne
    obtain ⟨tp, hmem⟩ := List.exists_mem_of_ne_nil _ hne
    exact ⟨tp.id, (horizonAmong_eq_some_iff ht hrows).1 (mem_membersOf_iff.1 hmem).2⟩
  · rintro ⟨τ, hputs⟩
    obtain ⟨tp, htp, rfl⟩ := isTimepoint_iff.1 (ha.isTimepoint hputs)
    exact List.ne_nil_of_mem
      (mem_membersOf_iff.2 ⟨htp, (horizonAmong_eq_some_iff ht hrows).2 hputs⟩)

/-- Horizons can be put in order if and only if they cover the timepoints, and none of them is
    empty or interrupted. -/
theorem exists_orderedHorizons_iff_puts :
    (∃ hs, orderedHorizons place' rows p s b (t.timepointsOf p s) (t.horizonsOf p b) = .ok hs) ↔
      (∀ τ, t.IsTimepoint p s τ → ∃ h, t.Puts p s b τ h) ∧
      (∀ h, t.IsHorizon p b h → ∃ τ, t.Puts p s b τ h) ∧
      ∀ h τ₁ τ τ₂, t.Puts p s b τ₁ h → t.Puts p s b τ₂ h → t.IsTimepoint p s τ →
        τ₁ ≤ τ → τ ≤ τ₂ → t.Puts p s b τ h := by
  rw [exists_orderedHorizons_iff (increasing_timepointsOf ht.nodup_timepoints)]
  simp only [horizonAmong_eq_some_iff ht hrows, membersOf_ne_nil_iff ht ha hrows]
  constructor
  · rintro ⟨hcovered, hdeclared⟩
    refine ⟨fun τ hτ => ?_, fun h hh => ?_, fun h τ₁ τ τ₂ h₁ h₂ hτ hle₁ hle₂ => ?_⟩
    · obtain ⟨tp, htp, rfl⟩ := isTimepoint_iff.1 hτ
      exact hcovered tp htp
    · obtain ⟨row, hrow, rfl⟩ := List.mem_map.1 (isHorizon_iff.1 hh)
      exact (hdeclared row hrow).1
    · -- What is put into a horizon is a timepoint, and the horizon is declared.
      obtain ⟨row, hrow, rfl⟩ := List.mem_map.1 (isHorizon_iff.1 (ha.isHorizon h₁))
      obtain ⟨tp₁, htp₁, rfl⟩ := isTimepoint_iff.1 (ha.isTimepoint h₁)
      obtain ⟨tp₂, htp₂, rfl⟩ := isTimepoint_iff.1 (ha.isTimepoint h₂)
      obtain ⟨tp, htp, rfl⟩ := isTimepoint_iff.1 hτ
      exact (hdeclared row hrow).2 tp₁ htp₁ tp htp tp₂ htp₂ h₁ h₂ hle₁ hle₂
  · rintro ⟨hcovered, hnonempty, hcontiguous⟩
    refine ⟨fun tp htp => hcovered tp.id (isTimepoint_iff.2 ⟨tp, htp, rfl⟩), fun row hrow =>
      ⟨hnonempty _ (isHorizon_iff.2 (List.mem_map_of_mem hrow)), ?_⟩⟩
    intro tp₁ _ tp htp tp₂ _ h₁ h₂ hle₁ hle₂
    exact hcontiguous _ _ _ _ h₁ h₂ (isTimepoint_iff.2 ⟨tp, htp, rfl⟩) hle₁ hle₂

/-- The first of the horizons in order is declared, and the first timepoint is put into it. -/
theorem exists_first_of_mem_head? {hs : List Horizon}
    (hok : orderedHorizons place' rows p s b (t.timepointsOf p s) (t.horizonsOf p b) = .ok hs)
    {hz : Horizon} (hhead : hz ∈ hs.head?) : ⟨p, b, hz.name, hz.declared⟩ ∈ t.horizons ∧
      ∃ τ, t.Puts p s b τ hz.name ∧ ∀ τ', t.IsTimepoint p s τ' → τ ≤ τ' := by
  have hsplits := splits_of_ok ht ha hrows hok
  have hmem := List.mem_of_mem_head? hhead
  obtain ⟨τ, hτ, hle⟩ := (mem_head?_iff (increasing_timepoints ht p s)
    hsplits.flatMap_timepoints hsplits.ne_nil hmem).1 hhead
  have hputs := ((hsplits.mem_timepoints_iff hmem).1 hτ).2
  rw [horizonAmong_eq_some_iff ht hrows] at hputs
  obtain ⟨row, hrow, rfl⟩ := hsplits.exists_row hmem
  obtain ⟨hrow', rfl, rfl⟩ := mem_horizonsOf_iff.1 hrow
  exact ⟨hrow', τ, hputs, fun τ' hτ' => hle τ' (mem_timepoints_iff.2 hτ')⟩

/-- If the first horizon is declared to be linked, there is something to link to. -/
theorem Tables.WellSplit.carriedOver_ne_nil (hsplit : t.WellSplit p s b) {hs : List Horizon}
    (hok : orderedHorizons place' rows p s b (t.timepointsOf p s) (t.horizonsOf p b) = .ok hs)
    {hz : Horizon} (hhead : hz ∈ hs.head?) (hlinked : hz.declared = .linked) {q : Nat}
    (hq : t.previous? p = some q) : carriedOver (t.timepointsOf q s) ≠ [] := by
  obtain ⟨hrow, τ, hputs, hle⟩ := exists_first_of_mem_head? ht ha hrows hok hhead
  rw [hlinked] at hrow
  rw [Ne, carriedOver_eq_nil_iff]
  exact hsplit.linkable _ τ q hputs hle hrow ((previous?_eq_some_iff ht.nodup_subproblems).1 hq)

/-- A balancing type gets a timeline if and only if it splits the timepoints. -/
theorem exists_resolveTimeline_iff :
    (∃ tl, (resolveTimeline place' t rows (t.sourceOf (t.previous? p) s) p s (t.timepointsOf p s)
      b).outcome = .ok tl) ↔ t.WellSplit p s b := by
  constructor
  · rintro ⟨tl, hok⟩
    obtain ⟨hs, hhs, -⟩ := resolveTimeline_ok_iff.1 hok
    obtain ⟨hcovered, hnonempty, hcontiguous⟩ :=
      (exists_orderedHorizons_iff_puts ht ha hrows).1 ⟨hs, hhs⟩
    refine ⟨hcovered, hnonempty, hcontiguous, fun h τ q hputs hle hrow hq => ?_⟩
    have hres := resolvesTimeline_of_ok ht ha hrows hok
    obtain ⟨hz, hmem, rfl, hdeclared⟩ := hres.exists_horizon hrow
    have hhead := (hres.mem_head?_iff ht hmem).2
      ⟨τ, (hres.mem_timepoints_iff hz hmem τ).2 hputs, hle⟩
    have hcarried := hres.linkable hz hhead hdeclared q
      ((previous?_eq_some_iff ht.nodup_subproblems).2 hq)
    rwa [Ne, carriedOver_eq_nil_iff] at hcarried
  · intro hsplit
    obtain ⟨hs, hhs⟩ : ∃ hs, orderedHorizons place' rows p s b (t.timepointsOf p s)
        (t.horizonsOf p b) = .ok hs := (exists_orderedHorizons_iff_puts ht ha hrows).2
      ⟨hsplit.covered, hsplit.nonempty, hsplit.contiguous⟩
    refine ⟨_, resolveTimeline_ok_iff.2 ⟨hs, hhs, fun hz hhead hlinked src hsrc => ?_, rfl⟩⟩
    obtain ⟨q, hq, rfl⟩ := Option.map_eq_some_iff.1 hsrc
    exact hsplit.carriedOver_ne_nil ht ha hrows hhs hhead hlinked hq

end Timelines

/-! ## Stages -/

/-- A stage is resolved if and only if it has timepoints, which are split by every balancing type
    and numbered rightly. -/
theorem exists_resolveStage_iff (ht : t.WellDeclared) (ha : t.WellAssigned)
    (hrows : t.membership place = .ok rows) {s : Nat × String} :
    (∃ stage, (resolveStage place' t rows (t.previous? p) p s).outcome = .ok stage) ↔
      t.WellStaged p s.1 := by
  simp only [resolveStage_ok_iff]
  have htimelines := exists_forall₂_iff (l := t.balancingTypes) (R := fun b tl =>
    (resolveTimeline ((place'.inSubproblem p).inStage s.1) t rows (t.sourceOf (t.previous? p) s.1) p
      s.1 (t.timepointsOf p s.1) b).outcome = .ok tl)
  simp only [exists_resolveTimeline_iff ht ha hrows, mem_balancingTypes_iff] at htimelines
  constructor
  · rintro ⟨_, hne, hindices, tls, htls, rfl⟩
    exact ⟨timepointsOf_ne_nil_iff.1 hne, htimelines.1 ⟨tls, htls⟩, hindices⟩
  · rintro ⟨hexists, hsplit, hindices⟩
    obtain ⟨tls, htls⟩ := htimelines.2 hsplit
    exact ⟨_, timepointsOf_ne_nil_iff.2 hexists, hindices, tls, htls, rfl⟩

/-! ## Subproblems -/

/-- A subproblem is resolved if and only if its stages are, and timepoints are put into the same
    horizons by all of them. -/
theorem exists_resolveSubproblem_iff (ht : t.WellDeclared) (ha : t.WellAssigned)
    (hrows : t.membership place = .ok rows) :
    (∃ sub, (resolveSubproblem place' t rows (t.previous? p) p).outcome = .ok sub) ↔
      (∀ s ∈ t.stagesOf p, t.WellStaged p s.1) ∧ ∀ s ∈ t.stagesOf p, ∀ s' ∈ t.stagesOf p,
        ∀ b τ h, t.Puts p s.1 b τ h → t.Puts p s'.1 b τ h := by
  have hstaged : ∀ s : Nat × String,
      (∃ stage, (resolveStage place' t rows (t.previous? p) p s).outcome = .ok stage) ↔
        t.WellStaged p s.1 := fun _ => exists_resolveStage_iff ht ha hrows
  simp only [resolveSubproblem_ok_iff, ← hstaged]
  constructor
  · rintro ⟨⟨_, stages⟩, -, hstages, hsame⟩
    refine ⟨exists_forall₂_iff.1 ⟨stages, hstages⟩, ?_⟩
    replace hstages := hstages.imp fun _ _ hok => resolvesStage_of_ok ht ha hrows hok
    cases stages with
    | nil => exact fun s hs => absurd hs (by rw [List.forall₂_nil_right_iff.1 hstages]; simp)
    | cons first rest =>
      -- All stages are compared with the first one, hence with each other.
      obtain ⟨_, -, -, hfirst⟩ := exists_of_mem_forall₂ hstages List.mem_cons_self
      have hputs : ∀ s ∈ t.stagesOf p, ∀ b τ h,
          t.Puts p first.id b τ h ↔ t.Puts p s.1 b τ h := by
        intro s hs
        obtain ⟨stage, hmem, rfl, hstage⟩ := exists_of_mem_forall₂ hstages.flip hs
        rcases List.mem_cons.1 hmem with rfl | hmem
        · exact fun _ _ _ => Iff.rfl
        · exact (hfirst.sameHorizons_iff ht ha hstage).1 (hsame first rfl stage hmem)
      exact fun s hs s' hs' b τ h hp => (hputs s' hs' b τ h).1 ((hputs s hs b τ h).2 hp)
  · rintro ⟨hstaged, hshared⟩
    obtain ⟨stages, hstages⟩ := exists_forall₂_iff.2 hstaged
    refine ⟨⟨p, stages⟩, rfl, hstages, fun first hhead stage htail => ?_⟩
    replace hstages := hstages.imp fun _ _ hok => resolvesStage_of_ok ht ha hrows hok
    obtain ⟨s, hs, rfl, hfirst⟩ := exists_of_mem_forall₂ hstages (List.mem_of_mem_head? hhead)
    obtain ⟨s', hs', rfl, hstage⟩ := exists_of_mem_forall₂ hstages (List.mem_of_mem_tail htail)
    exact (hfirst.sameHorizons_iff ht ha hstage).2 fun b τ h =>
      ⟨hshared _ hs _ hs' b τ h, hshared _ hs' _ hs b τ h⟩

/-! ## Tables -/

/-- All subproblems are resolved if and only if all stages are well formed, and those of a subproblem
    put timepoints into the same horizons. -/
theorem exists_resolveSubproblems_iff (ht : t.WellDeclared) (ha : t.WellAssigned)
    (hrows : t.membership place = .ok rows) :
    (∃ subs, List.Forall₂ (fun p sub => (resolveSubproblem place' t rows (t.previous? p)
        p).outcome = .ok sub) t.subproblemsInOrder subs) ↔
      (∀ p s, t.IsStage p s → t.WellStaged p s) ∧ ∀ p s s' b τ h, t.IsStage p s →
        t.IsStage p s' → t.Puts p s b τ h → t.Puts p s' b τ h := by
  simp only [exists_forall₂_iff, exists_resolveSubproblem_iff ht ha hrows, mem_subproblemsInOrder]
  constructor
  · intro hsub
    refine ⟨fun p s hs => ?_, fun p s s' b τ h hs hs' => ?_⟩
    · obtain ⟨hp, name, hmem⟩ := isStage_iff.1 hs
      exact (hsub p hp).1 _ hmem
    · obtain ⟨hp, name, hmem⟩ := isStage_iff.1 hs
      obtain ⟨-, name', hmem'⟩ := isStage_iff.1 hs'
      exact (hsub p hp).2 _ hmem _ hmem' b τ h
  · rintro ⟨hstaged, hshared⟩ p hp
    have hstage : ∀ s ∈ t.stagesOf p, t.IsStage p s.1 := fun s hs => isStage_iff.2 ⟨hp, s.2, hs⟩
    exact ⟨fun s hs => hstaged p s.1 (hstage s hs), fun s hs s' hs' b τ h =>
      hshared p s.1 s'.1 b τ h (hstage s hs) (hstage s' hs')⟩

/-- Tables which are resolved are well formed. -/
theorem wellFormed_of_ok {fragment : Nat} {H : Hierarchy}
    (hok : (resolve fragment t).outcome = .ok H) : t.WellFormed := by
  obtain ⟨ht, rows, subs, hrows, hsubs, -⟩ := resolve_ok_iff.1 hok
  have ha := (membership_ok_iff ht).1 ⟨rows, hrows⟩
  obtain ⟨hstaged, hshared⟩ := (exists_resolveSubproblems_iff ht ha hrows).1 ⟨subs, hsubs⟩
  exact ⟨ht, ha, hstaged, hshared⟩

/-- Well-formed tables are resolved. -/
theorem Tables.WellFormed.exists_resolve (ht : t.WellFormed) (fragment : Nat) :
    ∃ H, (resolve fragment t).outcome = .ok H := by
  obtain ⟨hd, ha, hstaged, hshared⟩ := ht
  obtain ⟨rows, hrows⟩ : ∃ rows, t.membership (.ofFragment fragment) = .ok rows :=
    (membership_ok_iff hd).2 ha
  obtain ⟨subs, hsubs⟩ := (exists_resolveSubproblems_iff hd ha hrows).2 ⟨hstaged, hshared⟩
  exact ⟨_, resolve_ok_iff.2 ⟨hd, rows, subs, hrows, hsubs, rfl⟩⟩

/-- Temporal tables are resolved if and only if they are well formed. -/
theorem resolve_accepts_iff (fragment : Nat) (t : Tables) :
    (∃ H, (resolve fragment t).outcome = .ok H) ↔ t.WellFormed :=
  ⟨fun ⟨_, hok⟩ => wellFormed_of_ok hok, fun ht => ht.exists_resolve fragment⟩

/-! ## Two linked days -/

/-- Two subproblems of two timepoints each. Each carries over its last timepoint, and its day is
    linked to that of the one before. -/
def twoDays : Tables :=
  let timepoint (p τ : Nat) (index : Option Int32) : TimepointRow :=
    ⟨p, 1, ⟨τ, 2030, 1.0, 1.0, index, none, none⟩⟩
  { periods := [⟨2030, 1.0, 10.0⟩]
    subproblems := [2, 1]
    timepoints :=
      [timepoint 1 2 (some 0), timepoint 1 1 none, timepoint 2 1 none, timepoint 2 2 (some 0)]
    horizons :=
      [⟨1, "day", "monday", .linked⟩, ⟨2, "day", "tuesday", .linked⟩,
        ⟨1, "hour", "all", .circular⟩, ⟨2, "hour", "late", .linear⟩,
        ⟨2, "hour", "early", .circular⟩]
    spans :=
      [⟨1, 1, "day", "monday", 1, 2⟩, ⟨2, 1, "day", "tuesday", 1, 2⟩,
        ⟨1, 1, "hour", "all", 1, 2⟩, ⟨2, 1, "hour", "late", 2, 2⟩, ⟨2, 1, "hour", "early", 1, 1⟩] }

/-- The two days have a hierarchy, with a stage of the second one. -/
theorem exists_resolve_twoDays : ∃ H, (resolve 1 twoDays).outcome = .ok H ∧
    ∃ stage, (2, stage) ∈ H.stages := by
  have hisOk : (resolve 1 twoDays).outcome.isOk := by decide
  obtain ⟨H, hok⟩ := exists_of_isOk hisOk
  have hstage : twoDays.IsStage 2 1 := ⟨by decide, .inr ⟨by decide, rfl⟩⟩
  obtain ⟨stage, hmem, -⟩ := (resolves_of_ok hok).exists_stage hstage
  exact ⟨H, hok, stage, hmem⟩

end CapacityExpansion.Temporal
