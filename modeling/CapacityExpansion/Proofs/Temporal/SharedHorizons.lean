import CapacityExpansion.Proofs.Temporal.Linkage
import CapacityExpansion.Proofs.Temporal.Links

/-!
# Horizons shared by stages

The stages of a subproblem are required to put the same timepoints into the same
horizons, the horizons of the first stage being looked for in the others. So they
have the same timepoints, if there is a horizon at all, and share everything
which is read off the numbers of the timepoints: the order of the horizons, the
boundaries which apply and the links. Only the hours of the timepoints may
differ, and with them how long a horizon lasts.

* `Horizon.untimed`, `Timeline.untimed`: horizons and timelines without durations;
* `ResolvesTimeline.untimed_eq`: stages which put the same timepoints into the
  same horizons have the same timelines;
* `resolve_shared`: the stages of a subproblem.
-/

namespace CapacityExpansion.Temporal

open Tables

/-- A horizon but for its duration. -/
def Horizon.untimed (hz : Horizon) : Horizon := { hz with duration := 0 }

/-- A timeline but for the durations of its horizons. -/
def Timeline.untimed (tl : Timeline) : Timeline :=
  { tl with horizons := tl.horizons.map Horizon.untimed }

/-- The stages have the same timepoints, split in the same way. -/
structure Stage.SharesHorizons (stage stage' : Stage) : Prop where
  timepoints : stage.timepoints.map Timepoint.id = stage'.timepoints.map Timepoint.id
  timelines : stage.timelines.map Timeline.untimed = stage'.timelines.map Timeline.untimed
  horizonOf_eq : ∀ τ b, stage.horizonOf τ b = stage'.horizonOf τ b
  previous_eq : ∀ τ b, stage.previous τ b = stage'.previous τ b
  next_eq : ∀ τ b, stage.next τ b = stage'.next τ b
  /-- Either both stages are linked to the previous subproblem or neither is. -/
  linkedPredecessors_eq_nil_iff : stage.linkedPredecessors = [] ↔ stage'.linkedPredecessors = []

variable {fragment p s s' : Nat} {t : Tables} {H : Hierarchy} {stage stage' : Stage}
  {b : BalancingType} {tl tl' : Timeline} {hz : Horizon}

/-! ## Timelines -/

/-- Links do not depend on durations. -/
theorem links_untimed (hs : List Horizon) :
    (hs.map Horizon.untimed).flatMap Horizon.links = hs.flatMap Horizon.links := by
  rw [List.flatMap_map]
  rfl

section SamePuts

variable (ht : t.WellDeclared) (hputs : ∀ b τ h, t.Puts p s b τ h ↔ t.Puts p s' b τ h)
  (hτ : ∀ τ, t.IsTimepoint p s τ ↔ t.IsTimepoint p s' τ)
include ht hputs hτ

/-- A horizon of a stage is one of the other, but for its duration. -/
theorem Tables.ResolvesTimeline.exists_untimed_eq (h : t.ResolvesTimeline p s b tl)
    (h' : t.ResolvesTimeline p s' b tl') (hmem : hz ∈ tl.horizons) :
    ∃ hz' ∈ tl'.horizons, hz'.untimed = hz.untimed := by
  obtain ⟨hz', hmem', hname, hdeclared⟩ := h'.exists_horizon (h.declared_mem hmem)
  have htimepoints : hz'.timepoints = hz.timepoints := by
    refine (h'.increasing ht hmem').ext (h.increasing ht hmem) fun τ => ?_
    rw [h'.mem_timepoints_iff hz' hmem', h.mem_timepoints_iff hz hmem, hputs, hname]
  -- The one is the first of its stage if and only if the other is, having the same timepoints.
  obtain ⟨isFirst, hfirst, hboundary⟩ := h.boundary_eq ht hmem
  obtain ⟨isFirst', hfirst', hboundary'⟩ := h'.boundary_eq ht hmem'
  rw [h.mem_head?_iff ht hmem] at hfirst
  rw [h'.mem_head?_iff ht hmem', htimepoints] at hfirst'
  simp only [hτ, ← hfirst'] at hfirst
  rw [hdeclared, Bool.eq_iff_iff.2 hfirst.symm, ← hboundary] at hboundary'
  refine ⟨hz', hmem', ?_⟩
  rw [Horizon.untimed, Horizon.untimed, hname, hdeclared, hboundary', htimepoints]

/-- The timelines of both stages are the same but for durations. -/
theorem Tables.ResolvesTimeline.untimed_eq (h : t.ResolvesTimeline p s b tl)
    (h' : t.ResolvesTimeline p s' b tl') : tl.untimed = tl'.untimed := by
  -- Horizons are in the order of their first timepoints, so it is enough that they are the same.
  have hincreasing : ∀ {s tl}, t.ResolvesTimeline p s b tl →
      Increasing (·.timepoints.headD 0) (tl.horizons.map Horizon.untimed) := fun {s tl} h =>
    List.pairwise_map.2
      (increasing_first (increasing_timepoints ht p s) h.flatMap_timepoints h.ne_nil)
  have hhorizons : tl.horizons.map Horizon.untimed = tl'.horizons.map Horizon.untimed := by
    refine (hincreasing h).ext (hincreasing h') fun hz => ?_
    rw [List.mem_map, List.mem_map]
    constructor
    · rintro ⟨hz, hmem, rfl⟩
      exact h.exists_untimed_eq ht hputs hτ h' hmem
    · rintro ⟨hz, hmem, rfl⟩
      exact h'.exists_untimed_eq ht (fun b τ h => (hputs b τ h).symm) (fun τ => (hτ τ).symm) h hmem
  rw [Timeline.untimed, Timeline.untimed, hhorizons, h.balancingType, h'.balancingType, h.links,
    h'.links, ← links_untimed, hhorizons, links_untimed]

end SamePuts

/-! ## Stages -/

/-- The place of a timepoint on a timeline does not depend on durations. -/
theorem link?_eq_of_untimed
    (h : stage.timelines.map Timeline.untimed = stage'.timelines.map Timeline.untimed) :
    stage.link? = stage'.link? := by
  funext τ b
  have hlink : ∀ stage : Stage, stage.link? τ b =
      ((stage.timelines.map Timeline.untimed).find? (·.balancingType == b)).bind fun tl =>
        tl.links.find? (·.timepoint == τ) := fun stage => by
    rw [List.find?_map, Option.bind_map]
    rfl
  rw [hlink, hlink, h]

theorem anyLinked_untimed (tls : List Timeline) :
    anyLinked (tls.map Timeline.untimed) = anyLinked tls := by
  simp only [anyLinked, Timeline.untimed, Horizon.untimed, List.any_map, Function.comp_def]

namespace Tables.WellFormed

variable (ht : t.WellFormed)
include ht

/-- The stages of a subproblem put the same timepoints into the same horizons. -/
theorem puts_iff_of_isStage (hs : t.IsStage p s) (hs' : t.IsStage p s') {τ : Nat}
    {h : HorizonName} : t.Puts p s b τ h ↔ t.Puts p s' b τ h :=
  ⟨ht.shared p s s' b τ h hs hs', ht.shared p s' s b τ h hs' hs⟩

/-- If there is a horizon at all, the stages of a subproblem have the same timepoints, namely those
    put into horizons. -/
theorem isTimepoint_iff_of_isStage (hb : t.IsBalancingType b) (hs : t.IsStage p s)
    (hs' : t.IsStage p s') {τ : Nat} : t.IsTimepoint p s τ ↔ t.IsTimepoint p s' τ := by
  -- Every timepoint is put into a horizon, so what is put there says what there is.
  have hputs : ∀ {s}, t.IsStage p s → (t.IsTimepoint p s τ ↔ ∃ h, t.Puts p s b τ h) := fun hs =>
    ⟨((ht.staged p _ hs).split b hb).covered τ, fun ⟨_, h⟩ => ht.assigned.isTimepoint h⟩
  rw [hputs hs, hputs hs']
  exact exists_congr fun _ => ht.puts_iff_of_isStage hs hs'

end Tables.WellFormed

/-- If there is a horizon at all, the stages of a subproblem have the same timepoints, the same
    horizons but for their durations, with the same boundaries, and the same neighbours; and either
    all of them are linked to the previous subproblem or none is. -/
theorem resolve_shared (hok : (resolve fragment t).outcome = .ok H) (hne : t.horizons ≠ [])
    (hmem : (p, stage) ∈ H.stages) (hmem' : (p, stage') ∈ H.stages) :
    stage.SharesHorizons stage' := by
  have ht := wellFormed_of_ok hok
  have hres := resolves_of_ok hok
  obtain ⟨hs, hstage⟩ := hres.of_mem_stages hmem
  obtain ⟨hs', hstage'⟩ := hres.of_mem_stages hmem'
  obtain ⟨row, hrow⟩ := List.exists_mem_of_ne_nil _ hne
  have hτ : ∀ τ, t.IsTimepoint p stage.id τ ↔ t.IsTimepoint p stage'.id τ := fun τ =>
    ht.isTimepoint_iff_of_isStage ⟨row, hrow, rfl⟩ hs hs'
  have htimelines : stage.timelines.map Timeline.untimed =
      stage'.timelines.map Timeline.untimed := by
    refine map_eq_map_of_forall₂ (R := fun tl tl' => tl.untimed = tl'.untimed) ?_ fun _ _ e => e
    exact forall₂_of_forall₂ (fun b tl tl' htl htl' => htl.untimed_eq ht.declared
      (fun b τ h => ht.puts_iff_of_isStage hs hs') hτ htl') hstage.timelines hstage'.timelines
  have hlink := link?_eq_of_untimed htimelines
  refine ⟨?_, htimelines, fun τ b => ?_, fun τ b => ?_, fun τ b => ?_, ?_⟩
  · rw [hstage.timepoints, hstage'.timepoints]
    refine (increasing_timepoints ht.declared p stage.id).ext
      (increasing_timepoints ht.declared p stage'.id) fun τ => ?_
    rw [mem_timepoints_iff, mem_timepoints_iff, hτ]
  · rw [Stage.horizonOf, Stage.horizonOf, hlink]
  · rw [Stage.previous, Stage.previous, hlink]
  · rw [Stage.next, Stage.next, hlink]
  · rw [← not_iff_not, ← Ne, ← Ne, hstage.linkedPredecessors_ne_nil_iff ht.declared,
      hstage'.linkedPredecessors_ne_nil_iff ht.declared, ← anyLinked_iff, ← anyLinked_iff,
      ← anyLinked_untimed, htimelines, anyLinked_untimed]

/-- Two linked days, each with a forecast and a final stage. The timepoints of a final stage last
    half as long. -/
def forecastDays : Tables :=
  let timepoint (p s τ : Nat) (hours : Float) (index : Option Int32) : TimepointRow :=
    ⟨p, s, ⟨τ, 2030, hours, 1.0, index, none, none⟩⟩
  { periods := [⟨2030, 1.0, 10.0⟩]
    subproblems := [1, 2]
    stages := [⟨1, 1, "forecast"⟩, ⟨1, 2, "final"⟩, ⟨2, 1, "forecast"⟩, ⟨2, 2, "final"⟩]
    timepoints :=
      [timepoint 1 1 4 2.0 (some 0), timepoint 1 2 4 1.0 (some 0), timepoint 2 1 4 2.0 none,
        timepoint 2 1 9 2.0 none, timepoint 2 2 4 1.0 none, timepoint 2 2 9 1.0 none]
    horizons := [⟨1, "day", "monday", .linear⟩, ⟨2, "day", "tuesday", .linked⟩]
    spans :=
      [⟨1, 1, "day", "monday", 4, 4⟩, ⟨1, 2, "day", "monday", 4, 4⟩,
        ⟨2, 1, "day", "tuesday", 4, 9⟩, ⟨2, 2, "day", "tuesday", 4, 9⟩] }

/-- The forecast and the final stage of the second day share its horizon. -/
theorem resolve_shared_forecastDays : ∃ H stage stage',
    (resolve 1 forecastDays).outcome = .ok H ∧ ((2, stage) ∈ H.stages ∧ stage.id = 1) ∧
      ((2, stage') ∈ H.stages ∧ stage'.id = 2) ∧ stage.SharesHorizons stage' := by
  have hisOk : (resolve 1 forecastDays).outcome.isOk := by decide
  obtain ⟨H, hok⟩ := exists_of_isOk hisOk
  have hstages : forecastDays.IsStage 2 1 ∧ forecastDays.IsStage 2 2 := by
    unfold IsStage
    decide
  obtain ⟨stage, hmem⟩ := (resolves_of_ok hok).exists_stage hstages.1
  obtain ⟨stage', hmem'⟩ := (resolves_of_ok hok).exists_stage hstages.2
  exact ⟨H, stage, stage', hok, hmem, hmem',
    resolve_shared hok (List.cons_ne_nil _ _) hmem.1 hmem'.1⟩

end CapacityExpansion.Temporal
