import CapacityExpansion.Proofs.Assembly.Phases
import CapacityExpansion.Proofs.Results.Records
import CapacityExpansion.Proofs.Temporal.Links
import Mathlib

/-!
# Timepoints and horizons in the results

The table of timepoints goes along the links of the timelines, and looks each
timepoint up in its stage; the table of horizons goes along the horizons. Both
go through the same *parts*, the horizons of the timelines of the stages: a part
is one row of the second table, and as many rows of the first one as it has
timepoints.

The parts of an assembled scenario are in order (`Part.Before`): by subproblem,
stage and balancing type, and then by time. What is said of the order of either
table and of the keys of its rows follows from that. It holds as well of the texts
which are written: there, rows are about the same horizon if they have the same cells
in the columns which name it.

* `Part`, `horizonRows_eq`, `timepointRows_eq`: the tables in terms of parts;
* `pairwise_before_parts`: the order of the parts;
* `written_eq_iff`, `HorizonRow.ListedIn.written`: the rows as they are written;
* `Tabulated`: the tables are complete and agree;
* `assemble_tabulated`: those of an assembled scenario are.
-/

namespace CapacityExpansion.Results

open Temporal (BalancingType Horizon HorizonName Link Tables Timeline Timepoint)

/-! ## What rows are about -/

/-- The timepoint of a row, with the timeline it is on. -/
def TimepointRow.key (row : TimepointRow) : Nat × Nat × BalancingType × Nat :=
  (row.subproblem, row.stage, row.balancingType, row.timepoint.id)

/-- The horizon which a row of a timepoint names. -/
def TimepointRow.horizonKey (row : TimepointRow) : Nat × Nat × BalancingType × HorizonName :=
  (row.subproblem, row.stage, row.balancingType, row.link.horizon)

/-- The horizon of a row. -/
def HorizonRow.key (row : HorizonRow) : Nat × Nat × BalancingType × HorizonName :=
  (row.subproblem, row.stage, row.balancingType, row.horizon.name)

/-- Where a row about something belongs in a table: by subproblem, stage and balancing type. -/
def rank {κ : Type} (types : List BalancingType) (key : Nat × Nat × BalancingType × κ) : List Nat :=
  [key.1, key.2.1, types.idxOf key.2.2.1]

/-- The rows of timepoints which name the horizon of a row. -/
def HorizonRow.timepointRows (row : HorizonRow) (rows : List TimepointRow) : List TimepointRow :=
  rows.filter fun timepoint => timepoint.horizonKey = row.key

/-- The rows of timepoints list the timepoints of a horizon, one after the other and as the row of
    the horizon says: their number, the first one, the last one. -/
structure HorizonRow.ListedIn (row : HorizonRow) (rows : List TimepointRow) : Prop where
  consecutive : row.timepointRows rows <:+: rows
  length_eq : (row.timepointRows rows).length = row.horizon.timepoints.length
  ne_nil : row.horizon.timepoints ≠ []
  head?_eq : (row.timepointRows rows).head?.map (·.timepoint.id) = row.horizon.timepoints.head?
  getLast?_eq :
    (row.timepointRows rows).getLast?.map (·.timepoint.id) = row.horizon.timepoints.getLast?
  increasing : Increasing (·.timepoint.id) (row.timepointRows rows)

/-- The columns which name a horizon, in either table. -/
def horizonColumns : List String := ["subproblem_id", "stage_id", "balancing_type", "horizon"]

/-- The timepoints which are written of a horizon: they name it by the same cells. -/
def WrittenRow.timepointRows (horizon : WrittenRow) (rows : List WrittenRow) : List WrittenRow :=
  rows.filter fun timepoint => ∀ column ∈ horizonColumns, timepoint column = horizon column

/-- The timepoints written list those of a horizon written, as its cells say: their number, the
    first one, the last one. -/
structure WrittenRow.ListedIn (horizon : WrittenRow) (rows : List WrittenRow) : Prop where
  consecutive : horizon.timepointRows rows <:+: rows
  number_eq : horizon "number_of_timepoints" = some (number (horizon.timepointRows rows).length)
  start_eq : horizon "tmp_start" = (horizon.timepointRows rows).head?.bind (· "timepoint")
  end_eq : horizon "tmp_end" = (horizon.timepointRows rows).getLast?.bind (· "timepoint")

/-- The tables of timepoints and of horizons are complete and agree, where every stage has the
    balancing types `types`. -/
structure Tabulated (types : List BalancingType) (r : ResolvedScenario) : Prop where
  nodup_types : types.Nodup
  balancingTypes_eq : ∀ grid ∈ r.stageGrids, grid.stage.balancingTypes = types
  /-- No timepoint is listed twice for a balancing type. -/
  nodup_timepoints : ((timepointRows r).map TimepointRow.key).Nodup
  mem_timepoints_iff : ∀ key, key ∈ (timepointRows r).map TimepointRow.key ↔
    ∃ grid ∈ r.stageGrids, ∃ b ∈ grid.stage.balancingTypes, ∃ tp ∈ grid.stage.timepoints,
      (grid.subproblem, grid.stage.id, b, tp.id) = key
  /-- No horizon is listed twice. -/
  nodup_horizons : ((horizonRows r).map HorizonRow.key).Nodup
  mem_horizons_iff : ∀ key, key ∈ (horizonRows r).map HorizonRow.key ↔
    ∃ grid ∈ r.stageGrids, ∃ timeline ∈ grid.stage.timelines, ∃ horizon ∈ timeline.horizons,
      (grid.subproblem, grid.stage.id, timeline.balancingType, horizon.name) = key
  /-- Both tables are in the order of the subproblems, then of the stages, and then of the balancing
      types, as these are listed in `types`. -/
  timepoints_inOrder : (timepointRows r).Pairwise fun a b => rank types a.key ≤ rank types b.key
  horizons_inOrder : (horizonRows r).Pairwise fun a b => rank types a.key ≤ rank types b.key
  listedIn : ∀ row ∈ horizonRows r, row.ListedIn (timepointRows r)
  exists_horizon : ∀ row ∈ timepointRows r, ∃ h ∈ horizonRows r, h.key = row.horizonKey
  /-- Every timepoint of a timeline is one of the stage, so none is left out. -/
  isSome_timepoint : ∀ grid ∈ r.stageGrids, ∀ timeline ∈ grid.stage.timelines,
    ∀ link ∈ timeline.links, (grid.stage.timepoints.find? (·.id == link.timepoint)).isSome
  /-- All rows are written, and nothing else. -/
  timepoints_written : writtenRows (timepointFormat.text (timepointRows r)) =
    (timepointRows r).map timepointFormat.written
  horizons_written : writtenRows (horizonFormat.text (horizonRows r)) =
    (horizonRows r).map horizonFormat.written
  /-- The texts agree as well. -/
  listedIn_written : ∀ row ∈ writtenRows (horizonFormat.text (horizonRows r)),
    row.ListedIn (writtenRows (timepointFormat.text (timepointRows r)))
  exists_horizon_written : ∀ row ∈ writtenRows (timepointFormat.text (timepointRows r)),
    ∃ h ∈ writtenRows (horizonFormat.text (horizonRows r)),
      ∀ column ∈ horizonColumns, row column = h column

/-! ## Rows as they are written -/

/-- The cells in the columns which name a horizon tell horizons apart. -/
theorem written_eq_iff {row : TimepointRow} {h : HorizonRow} :
    (∀ column ∈ horizonColumns, timepointFormat.written row column = horizonFormat.written h column) ↔
      row.horizonKey = h.key := by
  have hcells : (∀ column ∈ horizonColumns,
      timepointFormat.written row column = horizonFormat.written h column) ↔
      some (number row.subproblem) = some (number h.subproblem) ∧
        some (number row.stage) = some (number h.stage) ∧
        some row.balancingType = some h.balancingType ∧
        some row.link.horizon = some h.horizon.name := by
    rw [horizonColumns, List.forall_mem_cons, List.forall_mem_cons, List.forall_mem_cons,
      List.forall_mem_singleton]
    rfl
  rw [hcells, TimepointRow.horizonKey, HorizonRow.key]
  simp only [Option.some.injEq, Prod.mk.injEq]
  exact and_congr Nat.repr_inj (and_congr_left' Nat.repr_inj)

theorem timepointRows_written (h : HorizonRow) (rows : List TimepointRow) :
    (horizonFormat.written h).timepointRows (rows.map timepointFormat.written) =
      (h.timepointRows rows).map timepointFormat.written := by
  rw [WrittenRow.timepointRows, List.filter_map, HorizonRow.timepointRows]
  refine congrArg _ (List.filter_congr fun row _ => ?_)
  exact decide_eq_decide.2 written_eq_iff

/-- What is listed is listed in what is written. -/
theorem HorizonRow.ListedIn.written {h : HorizonRow} {rows : List TimepointRow}
    (hlisted : h.ListedIn rows) :
    (horizonFormat.written h).ListedIn (rows.map timepointFormat.written) := by
  -- At either end there is a timepoint, which is the one that the row of the horizon has.
  have hcell : ∀ {timepoint : Option TimepointRow} {id : Option Nat}, id ≠ none →
      timepoint.map (·.timepoint.id) = id → some (orBlank number id) =
        (timepoint.map timepointFormat.written).bind (· "timepoint") := by
    rintro (_ | row) _ hsome rfl
    · exact absurd rfl hsome
    · rfl
  constructor <;> rw [timepointRows_written]
  · exact hlisted.consecutive.map _
  · rw [List.length_map, hlisted.length_eq]
    rfl
  · rw [List.head?_map]
    exact hcell (mt List.head?_eq_none_iff.1 hlisted.ne_nil) hlisted.head?_eq
  · rw [List.getLast?_map]
    exact hcell (mt List.getLast?_eq_none_iff.1 hlisted.ne_nil) hlisted.getLast?_eq

/-! ## Parts -/

/-- A horizon of a timeline of a stage. -/
structure Part where
  /-- The stage. -/
  grid : StageGrid
  /-- The timeline. -/
  timeline : Timeline
  /-- The horizon. -/
  horizon : Horizon

/-- The parts of a scenario, in order. -/
def parts (r : ResolvedScenario) : List Part :=
  r.stageGrids.flatMap fun grid => grid.stage.timelines.flatMap fun timeline =>
    timeline.horizons.map fun horizon => ⟨grid, timeline, horizon⟩

namespace Part

/-- The row of a horizon. -/
def horizonRow (part : Part) : HorizonRow where
  subproblem := part.grid.subproblem
  stage := part.grid.stage.id
  balancingType := part.timeline.balancingType
  horizon := part.horizon

/-- The row of a timepoint, if it is one of the stage. -/
def timepointRow? (grid : StageGrid) (timeline : Timeline) (link : Link) : Option TimepointRow :=
  (grid.stage.timepoints.find? (·.id == link.timepoint)).map fun timepoint =>
    { subproblem := grid.subproblem
      stage := grid.stage.id
      timepoint
      balancingType := timeline.balancingType
      link }

/-- The rows of the timepoints of a horizon. -/
def timepointRows (part : Part) : List TimepointRow :=
  part.horizon.links.filterMap (timepointRow? part.grid part.timeline)

/-- What a part is about. -/
def key (part : Part) : Nat × Nat × BalancingType × HorizonName :=
  (part.grid.subproblem, part.grid.stage.id, part.timeline.balancingType, part.horizon.name)

/-- A part comes before another one: it belongs before it, or is a horizon of the same timeline with
    earlier timepoints. -/
def Before (types : List BalancingType) (a b : Part) : Prop :=
  Results.rank types a.key < Results.rank types b.key ∨
    Results.rank types a.key = Results.rank types b.key ∧ a.horizon.name ≠ b.horizon.name ∧
      ∀ τ ∈ a.horizon.timepoints, ∀ τ' ∈ b.horizon.timepoints, τ < τ'

end Part

variable {r : ResolvedScenario} {t : Tables} {types : List BalancingType} {part : Part}
  {grid : StageGrid} {timeline : Timeline}

theorem rank_lt_of_stage {κ : Type} {a b : Nat × Nat × BalancingType × κ}
    (hlt : a.1 < b.1 ∨ a.1 = b.1 ∧ a.2.1 < b.2.1) : rank types a < rank types b := by
  rw [rank, rank]
  rcases hlt with hlt | ⟨e, hlt⟩
  · exact .rel hlt
  · rw [e]
    exact .cons (.rel hlt)

theorem mem_parts : part ∈ parts r ↔ part.grid ∈ r.stageGrids ∧
    part.timeline ∈ part.grid.stage.timelines ∧ part.horizon ∈ part.timeline.horizons := by
  simp only [parts, List.mem_flatMap, List.mem_map]
  constructor
  · rintro ⟨grid, hgrid, timeline, htimeline, horizon, hhorizon, rfl⟩
    exact ⟨hgrid, htimeline, hhorizon⟩
  · rintro ⟨hgrid, htimeline, hhorizon⟩
    exact ⟨_, hgrid, _, htimeline, _, hhorizon, rfl⟩

/-- A row of a part is about a timepoint of the stage, on the timeline of the part and in its
    horizon. -/
theorem Part.of_mem_timepointRows {row : TimepointRow} (hrow : row ∈ part.timepointRows) :
    row.timepoint ∈ part.grid.stage.timepoints ∧ row.horizonKey = part.key ∧
      row.key = (part.grid.subproblem, part.grid.stage.id, part.timeline.balancingType,
        row.timepoint.id) := by
  obtain ⟨link, hlink, hrow⟩ := List.mem_filterMap.1 hrow
  obtain ⟨tp, hfind, rfl⟩ := Option.map_eq_some_iff.1 hrow
  obtain ⟨i, τ, -, rfl⟩ := Horizon.mem_links_iff.1 hlink
  exact ⟨List.mem_of_find?_eq_some hfind, rfl, rfl⟩

/-- A part is a row of the horizons. -/
theorem horizonRows_eq : horizonRows r = (parts r).map Part.horizonRow := by
  simp only [horizonRows, parts, List.map_flatMap, List.map_map]
  rfl

/-- The horizons listed are those of the timelines of the stages. -/
theorem mem_key_horizonRows_iff {key : Nat × Nat × BalancingType × HorizonName} :
    key ∈ (horizonRows r).map HorizonRow.key ↔
      ∃ grid ∈ r.stageGrids, ∃ timeline ∈ grid.stage.timelines,
        ∃ horizon ∈ timeline.horizons,
          (grid.subproblem, grid.stage.id, timeline.balancingType, horizon.name) = key := by
  simp only [horizonRows, List.mem_map, List.mem_flatMap]
  constructor
  · rintro ⟨_, ⟨grid, hgrid, timeline, htimeline, horizon, hhorizon, rfl⟩, rfl⟩
    exact ⟨grid, hgrid, timeline, htimeline, horizon, hhorizon, rfl⟩
  · rintro ⟨grid, hgrid, timeline, htimeline, horizon, hhorizon, rfl⟩
    exact ⟨_, ⟨grid, hgrid, timeline, htimeline, horizon, hhorizon, rfl⟩, rfl⟩

theorem mem_stageGrids : grid ∈ r.stageGrids ↔
    grid.scenario = r.name ∧ (grid.subproblem, grid.stage) ∈ r.temporal.stages := by
  obtain ⟨scenario, p, stage⟩ := grid
  simp only [ResolvedScenario.stageGrids, List.mem_map, Prod.exists, StageGrid.mk.injEq]
  constructor
  · rintro ⟨p, stage, hmem, rfl, rfl, rfl⟩
    exact ⟨rfl, hmem⟩
  · rintro ⟨rfl, hmem⟩
    exact ⟨p, stage, hmem, rfl, rfl, rfl⟩

section Resolved

variable (h : t.Resolves r.temporal)
include h

theorem resolvesStage_of_mem (hgrid : grid ∈ r.stageGrids) :
    t.ResolvesStage grid.subproblem grid.stage :=
  (h.of_mem_stages (mem_stageGrids.1 hgrid).2).2

theorem resolvesTimeline_of_mem (hgrid : grid ∈ r.stageGrids)
    (htimeline : timeline ∈ grid.stage.timelines) :
    t.ResolvesTimeline grid.subproblem grid.stage.id timeline.balancingType timeline :=
  (resolvesStage_of_mem h hgrid).resolvesTimeline_of_mem htimeline

/-- The horizons of a timeline have the timepoints of the stage. -/
theorem flatMap_timepoints_of_mem (hgrid : grid ∈ r.stageGrids)
    (htimeline : timeline ∈ grid.stage.timelines) :
    timeline.horizons.flatMap Horizon.timepoints = grid.stage.timepoints.map Timepoint.id := by
  rw [(resolvesTimeline_of_mem h hgrid htimeline).flatMap_timepoints,
    (resolvesStage_of_mem h hgrid).timepoints]

/-- A part is some rows of the timepoints which follow each other. -/
theorem timepointRows_eq : timepointRows r = (parts r).flatMap Part.timepointRows := by
  simp only [timepointRows, parts, List.flatMap_assoc, List.flatMap_map]
  refine List.flatMap_congr fun grid hgrid => List.flatMap_congr fun timeline htimeline => ?_
  -- The links of a timeline are those of its horizons, one horizon after the other.
  rw [(resolvesTimeline_of_mem h hgrid htimeline).links, List.filterMap_flatMap]
  rfl

/-- A timepoint of a timeline is found in its stage. -/
theorem exists_find?_timepoint (hgrid : grid ∈ r.stageGrids)
    (htimeline : timeline ∈ grid.stage.timelines) {link : Link} (hlink : link ∈ timeline.links) :
    ∃ tp, grid.stage.timepoints.find? (·.id == link.timepoint) = some tp ∧
      tp.id = link.timepoint := by
  have hmem : link.timepoint ∈ grid.stage.timepoints.map Timepoint.id := by
    rw [(resolvesStage_of_mem h hgrid).timepoints,
      ← (resolvesTimeline_of_mem h hgrid htimeline).map_timepoint_links]
    exact List.mem_map_of_mem hlink
  cases hfind : grid.stage.timepoints.find? (·.id == link.timepoint) with
  | none => exact absurd hmem (find?_key_eq_none_iff.1 hfind)
  | some tp =>
    have hid := List.find?_some hfind
    rw [beq_iff_eq] at hid
    exact ⟨tp, rfl, hid⟩

/-! ## The order of the parts -/

/-- The balancing types of a stage are those of the tables, in the same order. -/
theorem pairwise_timelines (hgrid : grid ∈ r.stageGrids) : grid.stage.timelines.Pairwise fun a b =>
    t.balancingTypes.idxOf a.balancingType < t.balancingTypes.idxOf b.balancingType := by
  have hinc : Increasing t.balancingTypes.idxOf grid.stage.balancingTypes := by
    rw [(resolvesStage_of_mem h hgrid).balancingTypes_eq]
    exact increasing_idxOf Tables.nodup_balancingTypes
  rwa [Increasing, Temporal.Stage.balancingTypes, List.pairwise_map] at hinc

/-- The parts of a scenario are in order. -/
theorem pairwise_before_parts : (parts r).Pairwise (Part.Before t.balancingTypes) := by
  rw [parts, List.pairwise_flatMap]
  constructor
  · intro grid hgrid
    rw [List.pairwise_flatMap]
    constructor
    · -- Horizons of a timeline are in the order of their timepoints.
      intro timeline htimeline
      have hhorizons := (resolvesTimeline_of_mem h hgrid htimeline).pairwise_horizons h.declared
      exact List.pairwise_map.2 (hhorizons.imp fun hlt => .inr ⟨rfl, hlt⟩)
    · -- Timelines of a stage are in the order of their balancing types.
      refine (pairwise_timelines h hgrid).imp fun hlt a ha b hb => .inl ?_
      obtain ⟨_, -, rfl⟩ := List.mem_map.1 ha
      obtain ⟨_, -, rfl⟩ := List.mem_map.1 hb
      exact .cons (.cons (.rel hlt))
  · rw [ResolvedScenario.stageGrids, List.pairwise_map]
    refine h.pairwise_stages.imp fun hlt a ha b hb => .inl ?_
    simp only [List.mem_flatMap, List.mem_map] at ha hb
    obtain ⟨_, -, _, -, rfl⟩ := ha
    obtain ⟨_, -, _, -, rfl⟩ := hb
    exact rank_lt_of_stage hlt

/-! ## The rows of a part -/

/-- The rows of the timepoints of a part are about the timepoints of its horizon. -/
theorem map_id_timepointRows (hpart : part ∈ parts r) :
    part.timepointRows.map (·.timepoint.id) = part.horizon.timepoints := by
  obtain ⟨hgrid, htimeline, hhorizon⟩ := mem_parts.1 hpart
  rw [Part.timepointRows, List.map_filterMap, ← part.horizon.map_timepoint_links,
    ← List.filterMap_eq_map]
  refine List.filterMap_congr fun link hlink => ?_
  have hmem : link ∈ part.timeline.links := by
    rw [(resolvesTimeline_of_mem h hgrid htimeline).links]
    exact List.mem_flatMap.2 ⟨_, hhorizon, hlink⟩
  obtain ⟨tp, hfind, hid⟩ := exists_find?_timepoint h hgrid htimeline hmem
  simp [Part.timepointRow?, hfind, hid]

theorem increasing_timepointRows (hpart : part ∈ parts r) :
    Increasing (·.timepoint.id) part.timepointRows := by
  obtain ⟨hgrid, htimeline, hhorizon⟩ := mem_parts.1 hpart
  have hinc := (resolvesTimeline_of_mem h hgrid htimeline).increasing h.declared hhorizon
  rw [← map_id_timepointRows h hpart] at hinc
  exact List.pairwise_map.1 hinc

/-! ## The rows of the tables -/

/-- The rows of timepoints are in the order of the parts, and in each part in that of time. -/
theorem pairwise_timepointRows : (timepointRows r).Pairwise fun a b =>
    rank t.balancingTypes a.key < rank t.balancingTypes b.key ∨
      rank t.balancingTypes a.key = rank t.balancingTypes b.key ∧
        a.timepoint.id < b.timepoint.id := by
  have hrank : ∀ {part : Part}, ∀ row ∈ part.timepointRows,
      rank t.balancingTypes row.key = rank t.balancingTypes part.key := fun row hrow =>
    congrArg (rank t.balancingTypes) (Part.of_mem_timepointRows hrow).2.1
  rw [timepointRows_eq h, List.pairwise_flatMap]
  constructor
  · intro part hpart
    refine (increasing_timepointRows h hpart).imp_of_mem fun ha hb hlt => .inr ⟨?_, hlt⟩
    rw [hrank _ ha, hrank _ hb]
  · refine (pairwise_before_parts h).imp_of_mem fun {p q} hp hq hbefore a ha b hb => ?_
    rw [hrank a ha, hrank b hb]
    rcases hbefore with hlt | ⟨e, -, hlt⟩
    · exact .inl hlt
    · rw [← map_id_timepointRows h hp, ← map_id_timepointRows h hq] at hlt
      exact .inr ⟨e, hlt _ (List.mem_map_of_mem ha) _ (List.mem_map_of_mem hb)⟩

theorem nodup_key_timepointRows : ((timepointRows r).map TimepointRow.key).Nodup := by
  refine List.pairwise_map.2 ((pairwise_timepointRows h).imp fun {a b} hlt e => ?_)
  -- Rows with the same key have the same rank and the same timepoint.
  rcases hlt with hlt | ⟨-, hlt⟩
  · exact List.lt_irrefl _ (e ▸ hlt)
  · have hid : a.timepoint.id = b.timepoint.id := congrArg (fun key => key.2.2.2) e
    exact Nat.lt_irrefl _ (hid ▸ hlt)

theorem nodup_key_parts : ((parts r).map Part.key).Nodup := by
  refine List.pairwise_map.2 ((pairwise_before_parts h).imp fun {a b} hbefore e => ?_)
  rcases hbefore with hlt | ⟨-, hne, -⟩
  · exact List.lt_irrefl _ (e ▸ hlt)
  · exact hne (congrArg (fun key => key.2.2.2) e)

/-- The timepoints listed are those of the stages, for each balancing type. -/
theorem mem_key_timepointRows_iff {key : Nat × Nat × BalancingType × Nat} :
    key ∈ (timepointRows r).map TimepointRow.key ↔
      ∃ grid ∈ r.stageGrids, ∃ b ∈ grid.stage.balancingTypes, ∃ tp ∈ grid.stage.timepoints,
        (grid.subproblem, grid.stage.id, b, tp.id) = key := by
  rw [timepointRows_eq h, List.map_flatMap]
  simp only [List.mem_flatMap]
  constructor
  · rintro ⟨part, hpart, hkey⟩
    obtain ⟨row, hrow, rfl⟩ := List.mem_map.1 hkey
    obtain ⟨hgrid, htimeline, -⟩ := mem_parts.1 hpart
    obtain ⟨htimepoint, -, hkey⟩ := Part.of_mem_timepointRows hrow
    exact ⟨_, hgrid, _, List.mem_map_of_mem htimeline, _, htimepoint, hkey.symm⟩
  · rintro ⟨grid, hgrid, b, hb, tp, htp, rfl⟩
    obtain ⟨timeline, htimeline, rfl⟩ := List.mem_map.1 hb
    have hmem : tp.id ∈ timeline.horizons.flatMap Horizon.timepoints := by
      rw [flatMap_timepoints_of_mem h hgrid htimeline]
      exact List.mem_map_of_mem htp
    -- The part of the horizon with the timepoint has a row for it.
    obtain ⟨horizon, hhorizon, hτ⟩ := List.mem_flatMap.1 hmem
    have hpart : (⟨grid, timeline, horizon⟩ : Part) ∈ parts r :=
      mem_parts.2 ⟨hgrid, htimeline, hhorizon⟩
    rw [← map_id_timepointRows h hpart] at hτ
    obtain ⟨row, hrow, hid⟩ := List.mem_map.1 hτ
    obtain ⟨-, -, hkey⟩ := Part.of_mem_timepointRows hrow
    exact ⟨_, hpart, List.mem_map.2 ⟨row, hrow, hkey.trans (by rw [hid])⟩⟩

/-- What names a horizon is what the part makes of its timepoints. -/
theorem timepointRows_horizonRow (hpart : part ∈ parts r) :
    part.horizonRow.timepointRows (timepointRows r) = part.timepointRows := by
  rw [HorizonRow.timepointRows, timepointRows_eq h]
  exact filter_flatMap_key (nodup_key_parts h)
    (fun _ _ _ hrow => (Part.of_mem_timepointRows hrow).2.1) hpart

theorem listedIn_horizonRow (hpart : part ∈ parts r) :
    part.horizonRow.ListedIn (timepointRows r) := by
  obtain ⟨hgrid, htimeline, hhorizon⟩ := mem_parts.1 hpart
  have hrows := timepointRows_horizonRow h hpart
  have hids := map_id_timepointRows h hpart
  have hne := (resolvesTimeline_of_mem h hgrid htimeline).ne_nil _ hhorizon
  refine ⟨?_, ?_, hne, ?_, ?_, ?_⟩ <;> rw [hrows]
  · rw [timepointRows_eq h, List.flatMap_def]
    exact List.infix_of_mem_flatten (List.mem_map_of_mem hpart)
  · exact (List.length_map _).symm.trans (congrArg List.length hids)
  · exact List.head?_map.symm.trans (congrArg List.head? hids)
  · exact List.getLast?_map.symm.trans (congrArg List.getLast? hids)
  · exact increasing_timepointRows h hpart

/-- The tables of a scenario with a resolved hierarchy are complete and agree. -/
theorem tabulated : Tabulated t.balancingTypes r where
  nodup_types := Tables.nodup_balancingTypes
  balancingTypes_eq grid hgrid := (resolvesStage_of_mem h hgrid).balancingTypes_eq
  nodup_timepoints := nodup_key_timepointRows h
  mem_timepoints_iff _ := mem_key_timepointRows_iff h
  nodup_horizons := by
    rw [horizonRows_eq, List.map_map]
    exact nodup_key_parts h
  mem_horizons_iff _ := mem_key_horizonRows_iff
  timepoints_inOrder := (pairwise_timepointRows h).imp fun hlt => by
    rcases hlt with hlt | ⟨e, -⟩
    · exact le_of_lt hlt
    · exact le_of_eq e
  horizons_inOrder := by
    rw [horizonRows_eq, List.pairwise_map]
    refine (pairwise_before_parts h).imp fun hbefore => ?_
    rcases hbefore with hlt | ⟨e, -⟩
    · exact le_of_lt hlt
    · exact le_of_eq e
  listedIn row hrow := by
    rw [horizonRows_eq] at hrow
    obtain ⟨part, hpart, rfl⟩ := List.mem_map.1 hrow
    exact listedIn_horizonRow h hpart
  exists_horizon row hrow := by
    rw [timepointRows_eq h] at hrow
    obtain ⟨part, hpart, hrow⟩ := List.mem_flatMap.1 hrow
    rw [horizonRows_eq]
    exact ⟨_, List.mem_map_of_mem hpart, (Part.of_mem_timepointRows hrow).2.1.symm⟩
  isSome_timepoint grid hgrid timeline htimeline link hlink := by
    obtain ⟨tp, hfind, -⟩ := exists_find?_timepoint h hgrid htimeline hlink
    rw [hfind]
    rfl
  timepoints_written := writtenRows_text (List.cons_ne_nil _ _) _
  horizons_written := writtenRows_text (List.cons_ne_nil _ _) _
  listedIn_written row hrow := by
    rw [writtenRows_text (List.cons_ne_nil _ _), horizonRows_eq, List.map_map] at hrow
    obtain ⟨part, hpart, rfl⟩ := List.mem_map.1 hrow
    rw [writtenRows_text (List.cons_ne_nil _ _)]
    exact (listedIn_horizonRow h hpart).written
  exists_horizon_written row hrow := by
    rw [writtenRows_text (List.cons_ne_nil _ _), timepointRows_eq h] at hrow
    obtain ⟨timepoint, htimepoint, rfl⟩ := List.mem_map.1 hrow
    obtain ⟨part, hpart, hmem⟩ := List.mem_flatMap.1 htimepoint
    rw [writtenRows_text (List.cons_ne_nil _ _), horizonRows_eq]
    refine ⟨_, List.mem_map_of_mem (List.mem_map_of_mem hpart), written_eq_iff.2 ?_⟩
    exact (Part.of_mem_timepointRows hmem).2.1

end Resolved

/-! ## Scenarios which are assembled -/

/-- An assembled scenario has the hierarchy of its temporal tables. -/
theorem exists_resolves_of_ok {store : Store} {s : Scenario} {requirements : Requirements}
    (hok : (assemble store s requirements).outcome = .ok r) :
    ∃ t : Tables, t.Resolves r.temporal := by
  obtain ⟨-, H, ⟨_, -, hresolve, -⟩, rfl⟩ := Assembly.exists_ready_of_ok hok
  exact ⟨_, Temporal.resolves_of_ok hresolve⟩

/-- The tables of timepoints and horizons of an assembled scenario are complete and agree. -/
theorem assemble_tabulated {store : Store} {s : Scenario} {requirements : Requirements}
    (hok : (assemble store s requirements).outcome = .ok r) : ∃ types, Tabulated types r := by
  obtain ⟨t, ht⟩ := exists_resolves_of_ok hok
  exact ⟨t.balancingTypes, tabulated ht⟩

/-- The scenario of two days has five horizons, with eight timepoints in all. -/
theorem assemble_tabulated_days : ∃ r,
    (assemble Assembly.daysStore (Assembly.daysScenario 1) Assembly.temporalOnly).outcome = .ok r ∧
      (horizonRows r).map HorizonRow.key = [(1, 1, "day", "monday"), (1, 1, "hour", "all"),
        (2, 1, "day", "tuesday"), (2, 1, "hour", "early"), (2, 1, "hour", "late")] ∧
      (timepointRows r).length = 8 ∧ ∃ types, Tabulated types r := by
  have hgiven : (assemble Assembly.daysStore (Assembly.daysScenario 1)
      Assembly.temporalOnly).outcome.toOption.map (fun r =>
        ((horizonRows r).map HorizonRow.key, (timepointRows r).length)) =
      some ([(1, 1, "day", "monday"), (1, 1, "hour", "all"), (2, 1, "day", "tuesday"),
        (2, 1, "hour", "early"), (2, 1, "hour", "late")], 8) := by decide +kernel
  have hisOk : (assemble Assembly.daysStore (Assembly.daysScenario 1)
      Assembly.temporalOnly).outcome.isOk := by decide +kernel
  obtain ⟨r, hok⟩ := exists_of_isOk hisOk
  rw [hok] at hgiven
  obtain ⟨hhorizons, htimepoints⟩ := Prod.mk.inj (Option.some.inj hgiven)
  exact ⟨r, hok, hhorizons, htimepoints, assemble_tabulated hok⟩

end CapacityExpansion.Results
