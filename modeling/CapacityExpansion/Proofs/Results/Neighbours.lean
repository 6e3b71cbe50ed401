import CapacityExpansion.Proofs.Results.Timelines
import CapacityExpansion.Proofs.Temporal.LookingBack
import Mathlib

/-!
# Neighbours in the results

The table of timepoints names the neighbours of a timepoint by their numbers
alone. Whether a number is that of a timepoint or the index of a timepoint
carried over can only be told from its sign: timepoints are positive and indices
are not. Both hold in an assembled scenario, so what is read from a cell is what
was written into it.

* `Adjacent.number`, `Adjacent.ofNumber`, `readNeighbour`: the numbers of
  neighbours, and how a cell is read;
* `Adjacent.Canonical`, `readNeighbour_orBlank`: neighbours with the right sign
  are read back;
* `Horizon.previous_linkAt`, `Horizon.next_linkAt`: the neighbours in a horizon;
* `assemble_neighbours`: the cells of an assembled scenario.
-/

namespace CapacityExpansion

namespace Temporal

open Tables

/-! ## Numbers of neighbours -/

/-- The number by which a neighbour is named. -/
def Adjacent.number : Adjacent → Int
  | .timepoint id => id
  | .linked index => index.toInt

/-- The neighbour which a number names: a timepoint if it is positive. -/
def Adjacent.ofNumber (i : Int) : Adjacent :=
  if 0 < i then .timepoint i.toNat else .linked (Int32.ofInt i)

/-- Timepoints are positive and indices are not. -/
def Adjacent.Canonical : Adjacent → Prop
  | .timepoint id => 0 < id
  | .linked index => index.toInt ≤ 0

/-- What the neighbours of a timepoint in the horizon `hz` of `stage` can be: timepoints of both, and
    timepoints carried over to the stage. -/
def Adjacent.IsIn (stage : Stage) (hz : Horizon) : Adjacent → Prop
  | .timepoint id => 0 < id ∧ id ∈ hz.timepoints ∧ ∃ tp ∈ stage.timepoints, tp.id = id
  | .linked index => index.toInt ≤ 0 ∧ ∃ l ∈ stage.linkedPredecessors, l.index = index

theorem Adjacent.IsIn.canonical {stage : Stage} {hz : Horizon} {a : Adjacent}
    (h : a.IsIn stage hz) : a.Canonical := by
  cases a with
  | timepoint id => exact h.1
  | linked index => exact h.1

theorem Adjacent.text_eq (a : Adjacent) : a.text = a.number.repr := by
  cases a with
  | timepoint id => rfl
  | linked index => rfl

theorem Adjacent.Canonical.ofNumber_number {a : Adjacent} (h : a.Canonical) :
    Adjacent.ofNumber a.number = a := by
  cases a with
  | timepoint id =>
    rw [ofNumber, number, if_pos (Int.natCast_pos.2 h), Int.toNat_natCast]
  | linked index =>
    rw [ofNumber, number, if_neg (Int.not_lt.2 h), Int32.ofInt_toInt]

/-! ## Neighbours in a horizon -/

section Horizon

variable {hz : Horizon} {i τ : Nat} {a : Adjacent}

/-- Before a timepoint of a horizon is another one of it, or index 0 if it is linked. -/
theorem Horizon.previous_linkAt (h : (hz.linkAt i τ).previous = some a) :
    (∃ υ ∈ hz.timepoints, a = .timepoint υ) ∨ hz.boundary = .linked ∧ a = .linked 0 := by
  rw [linkAt] at h
  dsimp only at h
  split at h
  · unfold entry at h
    split at h
    · obtain ⟨υ, hυ, rfl⟩ := Option.map_eq_some_iff.1 h
      exact .inl ⟨υ, List.mem_of_getLast? hυ, rfl⟩
    · cases h
    · next hb => exact .inr ⟨hb, (Option.some.inj h).symm⟩
  · obtain ⟨υ, hυ, rfl⟩ := Option.map_eq_some_iff.1 h
    exact .inl ⟨υ, List.mem_of_getElem? hυ, rfl⟩

/-- After a timepoint of a horizon is another one of it. -/
theorem Horizon.next_linkAt (h : (hz.linkAt i τ).next = some a) :
    ∃ υ ∈ hz.timepoints, a = .timepoint υ := by
  rw [linkAt] at h
  dsimp only at h
  rcases Option.or_eq_some_iff.1 h with h | ⟨-, h⟩
  · obtain ⟨υ, hυ, rfl⟩ := Option.map_eq_some_iff.1 h
    exact ⟨υ, List.mem_of_getElem? hυ, rfl⟩
  · unfold exit at h
    split at h
    · obtain ⟨υ, hυ, rfl⟩ := Option.map_eq_some_iff.1 h
      exact ⟨υ, List.mem_of_head? hυ, rfl⟩
    · cases h
    · cases h

end Horizon

/-- A stage with a linked horizon is given the timepoint with index 0, and other ones whose indices
    are not positive. -/
theorem Tables.Resolves.linkedPredecessors {t : Tables} {H : Hierarchy} {p : Nat} {stage : Stage}
    {tl : Timeline} {hz : Horizon} (h : t.Resolves H) (hmem : (p, stage) ∈ H.stages)
    (htl : tl ∈ stage.timelines) (hhz : hz ∈ tl.horizons) (hb : hz.boundary = .linked) :
    ∃ l ∈ stage.linkedPredecessors, l.index = 0 := by
  have hne : stage.linkedPredecessors ≠ [] :=
    ((h.of_mem_stages hmem).2.linkedPredecessors_ne_nil_iff h.declared).2 ⟨tl, htl, hz, hhz, hb⟩
  have hcounts := h.countsDown_linkedPredecessors hmem
  have hlen := List.length_pos_iff.2 hne
  refine ⟨_, List.getElem_mem hlen, ?_⟩
  rw [← Int32.toInt_inj, hcounts.toInt_getElem hlen]
  rfl

end Temporal

namespace Results

open Temporal (Adjacent Horizon Stage Tables)

/-! ## Cells -/

/-- The neighbour which a cell names. -/
def readNeighbour (cell : String) : Option Adjacent := cell.toInt?.map Adjacent.ofNumber

/-- The cell of a neighbour of a timepoint, which is in the horizon `hz` of `stage`. -/
structure NamesNeighbour (stage : Stage) (hz : Horizon) (cell : String)
    (neighbour : Option Adjacent) : Prop where
  eq_blank_iff : cell = "" ↔ neighbour = none
  /-- A positive number is that of a timepoint, one which is not positive an index. -/
  decimal : cell ≠ "" → ∃ i : Int, cell = toString i ∧
    (0 < i → ∃ tp ∈ stage.timepoints, tp.id ∈ hz.timepoints ∧ (tp.id : Int) = i ∧
      neighbour = some (.timepoint tp.id)) ∧
    (i ≤ 0 → ∃ l ∈ stage.linkedPredecessors, l.index.toInt = i ∧
      neighbour = some (.linked l.index))
  read_eq : readNeighbour cell = neighbour

/-- The cells of a row name the neighbours of its timepoint in its horizon. -/
structure TimepointRow.NamesNeighbours (r : ResolvedScenario) (row : TimepointRow) (grid : StageGrid)
    (timeline : Temporal.Timeline) (hz : Horizon) : Prop where
  grid_mem : grid ∈ r.stageGrids
  timeline_mem : timeline ∈ grid.stage.timelines
  horizon_mem : hz ∈ timeline.horizons
  horizonKey_eq : row.horizonKey =
    (grid.subproblem, grid.stage.id, timeline.balancingType, hz.name)
  timepoint_mem : row.timepoint ∈ grid.stage.timepoints ∧ row.timepoint.id ∈ hz.timepoints
  previous : ∃ cell, timepointFormat.cell? "previous_timepoint" row = some cell ∧
    NamesNeighbour grid.stage hz cell row.link.previous
  next : ∃ cell, timepointFormat.cell? "next_timepoint" row = some cell ∧
    NamesNeighbour grid.stage hz cell row.link.next
  /-- Timepoints carried over are before others only. -/
  next_ne_linked : ∀ index, row.link.next ≠ some (.linked index)

/-- The link of a row is that of a position of the horizon. -/
theorem Part.exists_linkAt_of_mem_timepointRows {part : Part} {row : TimepointRow}
    (hrow : row ∈ part.timepointRows) : ∃ i τ, part.horizon.timepoints[i]? = some τ ∧
      row.link = part.horizon.linkAt i τ ∧ row.timepoint.id = τ := by
  obtain ⟨link, hlink, hrow⟩ := List.mem_filterMap.1 hrow
  obtain ⟨tp, hfind, rfl⟩ := Option.map_eq_some_iff.1 hrow
  obtain ⟨i, τ, hi, rfl⟩ := Horizon.mem_links_iff.1 hlink
  have hid := List.find?_some hfind
  rw [beq_iff_eq] at hid
  exact ⟨i, τ, hi, rfl, hid⟩

theorem cell?_previous (row : TimepointRow) : timepointFormat.cell? "previous_timepoint" row =
    some (orBlank Adjacent.text row.link.previous) := rfl

theorem cell?_next (row : TimepointRow) : timepointFormat.cell? "next_timepoint" row =
    some (orBlank Adjacent.text row.link.next) := rfl

variable {r : ResolvedScenario} {t : Tables} {grid : StageGrid} {hz : Horizon} {stage : Stage}

theorem toInt?_blank : "".toInt? = none := by cbv

/-- Only a missing neighbour has an empty cell. -/
theorem orBlank_text_eq_blank_iff {neighbour : Option Adjacent} :
    orBlank Adjacent.text neighbour = "" ↔ neighbour = none := by
  cases neighbour with
  | none => exact iff_of_true rfl rfl
  | some a =>
    refine iff_of_false (fun e => ?_) (Option.some_ne_none a)
    have hread := a.number.toInt?_repr
    rw [← a.text_eq, show a.text = "" from e, toInt?_blank] at hread
    cases hread

/-- A neighbour is read back if its sign tells what it is. -/
theorem readNeighbour_orBlank {neighbour : Option Adjacent} (h : ∀ a ∈ neighbour, a.Canonical) :
    readNeighbour (orBlank Adjacent.text neighbour) = neighbour := by
  cases neighbour with
  | none => rw [orBlank, Option.elim, readNeighbour, toInt?_blank, Option.map_none]
  | some a =>
    rw [orBlank, Option.elim, readNeighbour, a.text_eq, Int.toInt?_repr, Option.map_some,
      (h a rfl).ofNumber_number]

/-- The cell of a neighbour in the horizon names it. -/
theorem namesNeighbour_orBlank {neighbour : Option Adjacent}
    (h : ∀ a ∈ neighbour, a.IsIn stage hz) :
    NamesNeighbour stage hz (orBlank Adjacent.text neighbour) neighbour where
  eq_blank_iff := orBlank_text_eq_blank_iff
  decimal := by
    intro hne
    obtain ⟨a, rfl⟩ := Option.ne_none_iff_exists'.1 (mt orBlank_text_eq_blank_iff.2 hne)
    refine ⟨a.number, a.text_eq, ?_, ?_⟩
    · intro hpos
      cases a with
      | timepoint id =>
        obtain ⟨-, hid, tp, htp, rfl⟩ := h _ rfl
        exact ⟨tp, htp, hid, rfl, rfl⟩
      | linked index =>
        have hindex := (h _ rfl).canonical
        exact absurd hpos (Int.not_lt.2 hindex)
    · intro hle
      cases a with
      | timepoint id =>
        have hid := (h _ rfl).canonical
        exact absurd (Int.natCast_pos.2 hid) (Int.not_lt.2 hle)
      | linked index =>
        obtain ⟨-, l, hl, rfl⟩ := h _ rfl
        exact ⟨l, hl, rfl, rfl⟩
  read_eq := readNeighbour_orBlank fun a ha => (h a ha).canonical

/-! ## Rows -/

section Resolved

variable (h : t.Resolves r.temporal)
include h

/-- The timepoints of a horizon are timepoints of the stage. -/
theorem isIn_timepoint {part : Part} (hpart : part ∈ parts r) {τ : Nat}
    (hτ : τ ∈ part.horizon.timepoints) :
    (Adjacent.timepoint τ).IsIn part.grid.stage part.horizon := by
  obtain ⟨hgrid, htimeline, hhorizon⟩ := mem_parts.1 hpart
  have hmem : τ ∈ part.grid.stage.timepoints.map Temporal.Timepoint.id := by
    rw [← flatMap_timepoints_of_mem h hgrid htimeline]
    exact List.mem_flatMap_of_mem hhorizon hτ
  obtain ⟨tp, htp, rfl⟩ := List.mem_map.1 hmem
  have hrow := htp
  rw [(resolvesStage_of_mem h hgrid).timepoints] at hrow
  exact ⟨(h.declared.positive_timepoint _ (Tables.mem_timepointsOf_iff.1 hrow)).1, hτ, tp, htp, rfl⟩

/-- Every row of the timepoints names the neighbours of its timepoint. -/
theorem namesNeighbours {row : TimepointRow} (hrow : row ∈ timepointRows r) :
    ∃ grid timeline hz, row.NamesNeighbours r grid timeline hz := by
  rw [timepointRows_eq h] at hrow
  obtain ⟨part, hpart, hrow⟩ := List.mem_flatMap.1 hrow
  obtain ⟨hgrid, htimeline, hhorizon⟩ := mem_parts.1 hpart
  obtain ⟨htp, hkey, -⟩ := Part.of_mem_timepointRows hrow
  obtain ⟨i, τ, hi, hlink, hid⟩ := Part.exists_linkAt_of_mem_timepointRows hrow
  have hnext : ∀ a ∈ row.link.next, ∃ υ ∈ part.horizon.timepoints, a = .timepoint υ := by
    intro a ha
    rw [hlink] at ha
    exact Horizon.next_linkAt ha
  refine ⟨part.grid, part.timeline, part.horizon, hgrid, htimeline, hhorizon, hkey,
    ⟨htp, hid ▸ List.mem_of_getElem? hi⟩,
    ⟨_, cell?_previous row, namesNeighbour_orBlank ?_⟩,
    ⟨_, cell?_next row, namesNeighbour_orBlank ?_⟩, ?_⟩
  · intro a ha
    rw [hlink] at ha
    rcases Horizon.previous_linkAt ha with ⟨υ, hυ, rfl⟩ | ⟨hb, rfl⟩
    · exact isIn_timepoint h hpart hυ
    · exact ⟨Int.le_refl 0,
        h.linkedPredecessors (mem_stageGrids.1 hgrid).2 htimeline hhorizon hb⟩
  · intro a ha
    obtain ⟨υ, hυ, rfl⟩ := hnext a ha
    exact isIn_timepoint h hpart hυ
  · intro index e
    obtain ⟨υ, -, e⟩ := hnext _ e
    cases e

end Resolved

/-! ## Scenarios which are assembled -/

/-- The neighbours of the timepoints of an assembled scenario can be read from the table of
    timepoints. -/
theorem assemble_neighbours {store : Store} {s : Scenario} {requirements : Requirements}
    (hok : (assemble store s requirements).outcome = .ok r) {row : TimepointRow}
    (hrow : row ∈ timepointRows r) : ∃ grid timeline hz, row.NamesNeighbours r grid timeline hz := by
  obtain ⟨t, ht⟩ := exists_resolves_of_ok hok
  exact namesNeighbours ht hrow

/-- The second day of the scenario of two days is preceded by the timepoint carried over from the
    first one. -/
theorem assemble_neighbours_days : ∃ r row,
    (assemble Assembly.daysStore (Assembly.daysScenario 1) Assembly.temporalOnly).outcome = .ok r ∧
      row ∈ timepointRows r ∧ row.horizonKey = (2, 1, "day", "tuesday") ∧
      timepointFormat.cell? "previous_timepoint" row = some "0" ∧
      timepointFormat.cell? "next_timepoint" row = some "2" ∧
      row.link.previous = some (.linked 0) ∧ row.link.next = some (.timepoint 2) ∧
      ∃ grid timeline hz, row.NamesNeighbours r grid timeline hz := by
  have hgiven : ((assemble Assembly.daysStore (Assembly.daysScenario 1)
      Assembly.temporalOnly).outcome.toOption.bind fun r => (timepointRows r)[4]?).map (fun row =>
        (row.horizonKey, row.link)) = some ((2, 1, "day", "tuesday"),
          ⟨1, "tuesday", some (.linked 0), some (.timepoint 2)⟩) := by decide +kernel
  have hisOk : (assemble Assembly.daysStore (Assembly.daysScenario 1)
      Assembly.temporalOnly).outcome.isOk := by decide +kernel
  obtain ⟨r, hok⟩ := exists_of_isOk hisOk
  rw [hok, Except.toOption, Option.bind_some] at hgiven
  obtain ⟨row, hget, e⟩ := Option.map_eq_some_iff.1 hgiven
  obtain ⟨hkey, hlink⟩ := Prod.mk.inj e
  have hrow := List.mem_of_getElem? hget
  refine ⟨r, row, hok, hrow, hkey, ?_, ?_, ?_, ?_, assemble_neighbours hok hrow⟩
  · rw [cell?_previous, hlink]
    rfl
  · rw [cell?_next, hlink]
    rfl
  · rw [hlink]
  · rw [hlink]

end Results

end CapacityExpansion
