import CapacityExpansion.Temporal.Carryover
import CapacityExpansion.Temporal.Membership

/-!
# Timelines

The timeline of a stage for one balancing type. Every timepoint of the stage is
in a horizon, the timepoints of each declared horizon follow each other, and the
horizons are ordered by their first timepoints. The neighbours of a timepoint
are those in its horizon, and at the ends what the boundary says.

A linked boundary is one with the previous subproblem. So only the first horizon
of a subproblem which has a previous one can be linked, and only if timepoints
are carried over; else the boundary is demoted to a linear one.

* `orderedHorizons`: the horizons of a stage;
* `chain`: the neighbours along a horizon;
* `resolveTimeline`: the timeline.
-/

namespace CapacityExpansion.Temporal

/-- Resolving reports demotions as it goes, also those before a fault. -/
abbrev Resolving := ExceptT Fault (StateM (List Demotion))

/-- Reports a demotion. -/
def report (demotion : Demotion) : Resolving Unit := modify (· ++ [demotion])

/-! ## Horizons -/

/-- Every timepoint of a stage with its position and its horizon. -/
def placed (place : Location) (rows : List MemberRow) (subproblem stage : Nat)
    (balancingType : BalancingType) (timepoints : List Timepoint) :
    Except Fault (List (Nat × Timepoint × HorizonName)) :=
  timepoints.zipIdx.mapM fun (tp, position) =>
    match horizonAmong rows subproblem stage balancingType tp.id with
    | none => .error ⟨place, .uncoveredTimepoint tp.id balancingType⟩
    | some horizon => .ok (position, tp, horizon)

/-- The hours of some timepoints, summed from left to right. -/
def totalHours (timepoints : List Timepoint) : Float :=
  timepoints.foldl (fun sum tp => sum + tp.hours) 0

/-- A declared horizon with the timepoints put into it, and the position of the first of them. -/
def horizonOf (place : Location) (members : List (Nat × Timepoint × HorizonName))
    (row : HorizonRow) : Except Fault (Nat × Horizon) := do
  let place := place.inHorizon row.balancingType row.horizon
  match members.filter (·.2.2 == row.horizon) with
  | [] => throw ⟨place, .emptyHorizon⟩
  | first :: rest =>
    let own := first :: rest
    require (neighbours (fun a b => a.1 + 1 == b.1) own) ⟨place, .nonContiguousHorizon⟩
    return (first.1,
      { name := row.horizon
        declared := row.boundary
        boundary := row.boundary
        timepoints := own.map (·.2.1.id)
        duration := totalHours (own.map (·.2.1)) })

/-- The horizons of a stage for a balancing type, ordered by their first timepoints. -/
def orderedHorizons (place : Location) (rows : List MemberRow) (subproblem stage : Nat)
    (balancingType : BalancingType) (timepoints : List Timepoint) (declared : List HorizonRow) :
    Except Fault (List Horizon) := do
  let members ← placed place rows subproblem stage balancingType timepoints
  let horizons ← declared.mapM (horizonOf place members)
  return (sortOn Prod.fst horizons).map Prod.snd

/-! ## Boundaries -/

/-- A subproblem's predecessor and the timepoints it carries over to a stage. -/
structure Source where
  /-- The previous subproblem. -/
  subproblem : Nat
  /-- The timepoints carried over from it. -/
  linked : List LinkedTimepoint

/-- The boundary which applies to a horizon. -/
def effectiveBoundary (place : Location) (source : Option Source) (isFirst : Bool)
    (declared : Boundary) : Resolving Boundary :=
  if declared ≠ .linked then return declared
  else if !isFirst then do
    report ⟨place, .notFirst⟩
    return .linear
  else match source with
    | none => do
      report ⟨place, .noPrevious⟩
      return .linear
    | some source =>
      if source.linked.isEmpty then throw ⟨place, .missingLinkedTimepoints source.subproblem⟩
      else return .linked

/-- The horizons of a timeline with the boundaries which apply. -/
def settleBoundaries (place : Location) (balancingType : BalancingType) (source : Option Source) :
    (isFirst : Bool) → List Horizon → Resolving (List Horizon)
  | _, [] => return []
  | isFirst, horizon :: rest => do
    let place' := place.inHorizon balancingType horizon.name
    let boundary ← effectiveBoundary place' source isFirst horizon.declared
    return { horizon with boundary } :: (← settleBoundaries place balancingType source false rest)

/-! ## Neighbours -/

/-- The links of timepoints which follow each other, between two given neighbours. -/
def chain (horizon : HorizonName) (before after : Option Adjacent) : List Nat → List Link
  | [] => []
  | [timepoint] => [⟨timepoint, horizon, before, after⟩]
  | timepoint :: following :: rest =>
    ⟨timepoint, horizon, before, some (.timepoint following)⟩ ::
      chain horizon (some (.timepoint timepoint)) after (following :: rest)

/-- The links of the timepoints of a horizon. -/
def Horizon.links (horizon : Horizon) : List Link :=
  let chain := chain horizon.name
  match horizon.boundary with
  | .circular =>
    chain (horizon.timepoints.getLast?.map .timepoint) (horizon.timepoints.head?.map .timepoint)
      horizon.timepoints
  | .linear => chain none none horizon.timepoints
  | .linked => chain (some (.linked 0)) none horizon.timepoints

/-- The timeline of a stage for a balancing type. -/
def resolveTimeline (place : Location) (t : Tables) (rows : List MemberRow)
    (source : Option Source) (subproblem stage : Nat) (timepoints : List Timepoint)
    (balancingType : BalancingType) : Resolving Timeline := do
  let ordered ← orderedHorizons place rows subproblem stage balancingType timepoints
    (t.horizonsOf subproblem balancingType)
  let horizons ← settleBoundaries place balancingType source true ordered
  return { balancingType, horizons, links := horizons.flatMap Horizon.links }

end CapacityExpansion.Temporal
