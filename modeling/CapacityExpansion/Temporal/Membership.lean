import CapacityExpansion.Temporal.Declarations

/-!
# Membership in horizons

Which horizon each timepoint is put into. Either every horizon is given by the
rows of its timepoints, or, if the tables have any spans, by its spans alone: a
span stands for the rows of all timepoints of its stage between its ends, in
order, whatever their numbers. A row may be repeated, but a timepoint is in one
horizon of each balancing type only.

* `Tables.rowsOfSpan`: the rows a span stands for;
* `Tables.membership`: the rows in use, once all of them have been checked.
-/

namespace CapacityExpansion.Temporal

namespace Tables

variable (t : Tables) (place : Location)

/-- The stage of a row exists. -/
def checkStageOf (place : Location) (subproblem stage : Nat) : Except Fault Unit := do
  require (subproblem ∈ t.subproblems) ⟨place, .undeclaredSubproblem⟩
  require (t.hasStage subproblem stage) ⟨place, .undeclaredStage⟩

/-- The rows which a row of a single timepoint stands for. -/
def rowsOfMember (row : MemberRow) : Except Fault (List MemberRow) := do
  let place := ((place.inSubproblem row.subproblem).inStage row.stage).inHorizon
    row.balancingType row.horizon
  t.checkStageOf place row.subproblem row.stage
  require (row.timepoint ∈ (t.timepointsOf row.subproblem row.stage).map Timepoint.id)
    ⟨place, .unknownTimepoint row.timepoint⟩
  return [row]

/-- The position of a timepoint in its stage. -/
def positionOf (place : Location) (timepoints : List Nat) (timepoint : Nat) : Except Fault Nat :=
  if timepoint ∈ timepoints then .ok (timepoints.idxOf timepoint)
  else .error ⟨place, .unknownTimepoint timepoint⟩

/-- The rows which a span stands for. -/
def rowsOfSpan (row : SpanRow) : Except Fault (List MemberRow) := do
  let place := ((place.inSubproblem row.subproblem).inStage row.stage).inHorizon
    row.balancingType row.horizon
  t.checkStageOf place row.subproblem row.stage
  let timepoints := (t.timepointsOf row.subproblem row.stage).map Timepoint.id
  let first ← positionOf place timepoints row.first
  let last ← positionOf place timepoints row.last
  require (first ≤ last) ⟨place, .startAfterEnd row.first row.last⟩
  return ((timepoints.drop first).take (last - first + 1)).map fun timepoint =>
    ⟨row.subproblem, row.stage, timepoint, row.balancingType, row.horizon⟩

end Tables

/-- The horizon which some rows put a timepoint into. -/
def horizonAmong (rows : List MemberRow) (subproblem stage : Nat) (balancingType : BalancingType)
    (timepoint : Nat) : Option HorizonName :=
  (rows.find? fun row => row.subproblem == subproblem && row.stage == stage &&
    row.timepoint == timepoint && row.balancingType == balancingType).map MemberRow.horizon

namespace Tables

variable (t : Tables) (place : Location)

/-- A timepoint is put into a declared horizon, and into no other one of its balancing type. -/
def checkMember (earlier : List MemberRow) (row : MemberRow) : Except Fault Unit := do
  let place := ((place.inSubproblem row.subproblem).inStage row.stage).inHorizon
    row.balancingType row.horizon
  require (t.hasHorizon row.subproblem row.balancingType row.horizon)
    ⟨place, .undeclaredHorizon row.timepoint⟩
  match horizonAmong earlier row.subproblem row.stage row.balancingType row.timepoint with
  | none => return
  | some first =>
    require (first = row.horizon)
      ⟨place, .duplicateHorizonMembership row.timepoint row.balancingType first row.horizon⟩

/-- The rows in use with a further one, if it fits to them. -/
def addMember (rows : List MemberRow) (row : MemberRow) : Except Fault (List MemberRow) := do
  t.checkMember place rows row
  return rows ++ [row]

/-- The rows which a list of rows of either kind stands for, each checked against those before. -/
def collectMembers {ρ : Type} (rowsOf : ρ → Except Fault (List MemberRow)) (rows : List ρ) :
    Except Fault (List MemberRow) :=
  rows.foldlM (fun soFar row => do (← rowsOf row).foldlM (t.addMember place) soFar) []

/-- The rows which put timepoints into horizons: those of the spans if there are any. -/
def membership : Except Fault (List MemberRow) :=
  match t.spans with
  | [] => t.collectMembers place (t.rowsOfMember place) t.members
  | spans => t.collectMembers place (t.rowsOfSpan place) spans

end Tables

end CapacityExpansion.Temporal
