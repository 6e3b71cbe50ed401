import CapacityExpansion.Proofs.Temporal.Resolved

/-!
# Links of a horizon

The place of a timepoint on a timeline is known from its position in its
horizon: within the horizon its neighbours are those at the positions before and
after, and at the ends the boundary says what the neighbour is. The timelines of
a resolved stage have such a link for every timepoint of the stage.

* `Horizon.linkAt`, `Horizon.getElem?_links`: the link at each position;
* `ResolvesTimeline.map_timepoint_links`: the timepoints with a link;
* `ResolvesStage.link?_eq_some_iff`: the link found under a timepoint.
-/

namespace CapacityExpansion.Temporal

/-- The neighbour before the first timepoint of a horizon. -/
def Horizon.entry (hz : Horizon) : Option Adjacent :=
  match hz.boundary with
  | .circular => hz.timepoints.getLast?.map .timepoint
  | .linear => none
  | .linked => some (.linked 0)

/-- The neighbour after the last timepoint of a horizon. -/
def Horizon.exit (hz : Horizon) : Option Adjacent :=
  match hz.boundary with
  | .circular => hz.timepoints.head?.map .timepoint
  | .linear => none
  | .linked => none

/-- The link of the timepoint `τ` at the position `i` of a horizon. -/
def Horizon.linkAt (hz : Horizon) (i τ : Nat) : Link where
  timepoint := τ
  horizon := hz.name
  previous := if i = 0 then hz.entry else hz.timepoints[i - 1]?.map .timepoint
  next := (hz.timepoints[i + 1]?.map .timepoint).or hz.exit

variable {hz : Horizon} {link : Link}

/-! ## Horizons -/

theorem getElem?_chain (name : HorizonName) (before after : Option Adjacent) (l : List Nat)
    (i : Nat) : (chain name before after l)[i]? = l[i]?.map fun τ => ⟨τ, name,
      if i = 0 then before else l[i - 1]?.map .timepoint,
      (l[i + 1]?.map .timepoint).or after⟩ := by
  induction l generalizing before i with
  | nil => rfl
  | cons τ l ih =>
    cases l with
    | nil => cases i <;> rfl
    | cons υ l =>
      -- The rest is a chain with `τ` before it.
      rw [chain]
      cases i with
      | zero => rfl
      | succ i =>
        rw [List.getElem?_cons_succ, ih, List.getElem?_cons_succ, List.getElem?_cons_succ]
        cases i <;> rfl

/-- Only a circular horizon goes on after its last timepoint, with its first one. -/
theorem Horizon.exit_eq_some_iff {υ : Nat} : hz.exit = some (.timepoint υ) ↔
    hz.boundary = .circular ∧ hz.timepoints.head? = some υ := by
  unfold exit
  cases hz.boundary with
  | circular => simp
  | linear => simp
  | linked => simp

theorem Horizon.exit_of_ne_circular (h : hz.boundary ≠ .circular) : hz.exit = none := by
  unfold exit
  cases e : hz.boundary with
  | circular => exact absurd e h
  | linear => rfl
  | linked => rfl

/-- Only a circular horizon has a timepoint before its first one, namely its last one. -/
theorem Horizon.entry_eq_some_iff {τ : Nat} : hz.entry = some (.timepoint τ) ↔
    hz.boundary = .circular ∧ hz.timepoints.getLast? = some τ := by
  unfold entry
  cases hz.boundary with
  | circular => simp
  | linear => simp
  | linked => simp

/-- The links of a horizon, position by position. -/
theorem Horizon.getElem?_links (hz : Horizon) (i : Nat) :
    hz.links[i]? = hz.timepoints[i]?.map (hz.linkAt i) := by
  have hchain : hz.links = chain hz.name hz.entry hz.exit hz.timepoints := by
    unfold Horizon.links entry exit
    cases hz.boundary <;> rfl
  rw [hchain, getElem?_chain]
  rfl

theorem Horizon.mem_links_iff :
    link ∈ hz.links ↔ ∃ i τ, hz.timepoints[i]? = some τ ∧ hz.linkAt i τ = link := by
  simp only [List.mem_iff_getElem?, hz.getElem?_links, Option.map_eq_some_iff]

theorem Horizon.map_timepoint_links (hz : Horizon) :
    hz.links.map Link.timepoint = hz.timepoints := by
  refine List.ext_getElem? fun i => ?_
  rw [List.getElem?_map, hz.getElem?_links, Option.map_map]
  exact Option.map_id'

/-! ## Timelines -/

variable {t : Tables} {p s τ : Nat} {b : BalancingType} {tl : Timeline} {stage : Stage}

/-- Every timepoint of a stage has one link, in order. -/
theorem Tables.ResolvesTimeline.map_timepoint_links (h : t.ResolvesTimeline p s b tl) :
    tl.links.map Link.timepoint = (t.timepointsOf p s).map Timepoint.id := by
  rw [h.links, ← h.flatMap_timepoints, List.map_flatMap]
  exact List.flatMap_congr fun hz _ => hz.map_timepoint_links

theorem Tables.ResolvesTimeline.mem_links_iff (h : t.ResolvesTimeline p s b tl) :
    link ∈ tl.links ↔
      ∃ hz ∈ tl.horizons, ∃ i τ, hz.timepoints[i]? = some τ ∧ hz.linkAt i τ = link := by
  simp only [h.links, List.mem_flatMap, Horizon.mem_links_iff]

namespace Tables.ResolvesStage

/-- A timepoint has the link of its position in its horizon. -/
theorem link?_eq_some_iff (h : t.ResolvesStage p stage)
    (ht : t.WellDeclared) : stage.link? τ b = some link ↔
      ∃ tl, stage.timeline? b = some tl ∧ ∃ hz ∈ tl.horizons, ∃ i, hz.timepoints[i]? = some τ ∧
        hz.linkAt i τ = link := by
  rw [Stage.link?, Option.bind_eq_some_iff]
  refine exists_congr fun tl => and_congr_right fun htl => ?_
  have hres := h.resolvesTimeline htl
  have hnodup : (tl.links.map Link.timepoint).Nodup := by
    rw [hres.map_timepoint_links]
    exact (increasing_timepoints ht p stage.id).nodup
  rw [find?_key_eq_some_iff hnodup, hres.mem_links_iff]
  constructor
  · rintro ⟨⟨hz, hmem, i, τ, hi, rfl⟩, rfl⟩
    exact ⟨hz, hmem, i, hi, rfl⟩
  · rintro ⟨hz, hmem, i, hi, rfl⟩
    exact ⟨⟨hz, hmem, i, τ, hi, rfl⟩, rfl⟩

/-- The link at a position of a horizon. -/
theorem link?_eq (h : t.ResolvesStage p stage) (ht : t.WellDeclared)
    (htl : stage.timeline? b = some tl) (hmem : hz ∈ tl.horizons) {i : Nat}
    (hi : hz.timepoints[i]? = some τ) : stage.link? τ b = some (hz.linkAt i τ) :=
  (h.link?_eq_some_iff ht).2 ⟨tl, htl, hz, hmem, i, hi, rfl⟩

/-- What the link of a timepoint says is read off its position. -/
theorem bind_link?_eq_some_iff {α : Type} (h : t.ResolvesStage p stage) (ht : t.WellDeclared)
    (f : Link → Option α) {a : α} : (stage.link? τ b).bind f = some a ↔
      ∃ tl, stage.timeline? b = some tl ∧ ∃ hz ∈ tl.horizons, ∃ i, hz.timepoints[i]? = some τ ∧
        f (hz.linkAt i τ) = some a := by
  rw [Option.bind_eq_some_iff]
  simp only [h.link?_eq_some_iff ht]
  constructor
  · rintro ⟨_, ⟨tl, htl, hz, hmem, i, hi, rfl⟩, e⟩
    exact ⟨tl, htl, hz, hmem, i, hi, e⟩
  · rintro ⟨tl, htl, hz, hmem, i, hi, e⟩
    exact ⟨_, ⟨tl, htl, hz, hmem, i, hi, rfl⟩, e⟩

/-- A timepoint of a horizon is known to be in it. -/
theorem horizonOf_eq (h : t.ResolvesStage p stage) (ht : t.WellDeclared)
    (htl : stage.timeline? b = some tl) (hmem : hz ∈ tl.horizons) (hτ : τ ∈ hz.timepoints) :
    stage.horizonOf τ b = some hz.name := by
  obtain ⟨i, hi⟩ := List.mem_iff_getElem?.1 hτ
  rw [Stage.horizonOf, h.link?_eq ht htl hmem hi, Option.map_some]
  rfl

end Tables.ResolvesStage

end CapacityExpansion.Temporal
