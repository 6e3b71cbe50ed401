import CapacityExpansion.Temporal.Tables

/-!
# The temporal hierarchy

What the temporal tables stand for once they fit together: periods, and
subproblems with their stages; a stage has its timepoints and, for each
balancing type, a *timeline*, which splits the timepoints into horizons and
gives every timepoint its neighbours.

Before the first timepoint of a subproblem there may be timepoints carried over
from the previous one. They have the indices `0, -1, -2, …` going back in time,
so an index is never mistaken for a timepoint, which is positive.

* `Stage.previous`, `Stage.next`: the neighbours of a timepoint;
* `Stage.linkedPredecessor`: the neighbour of a timepoint carried over.
-/

namespace CapacityExpansion.Temporal

/-- A neighbour of a timepoint. -/
inductive Adjacent where
  /-- A timepoint of the same stage. -/
  | timepoint (id : Nat)
  /-- A timepoint carried over from the previous subproblem. -/
  | linked (index : Int32)
  deriving DecidableEq, Repr

/-- The text of a neighbour: its number, which is positive for a timepoint only. -/
def Adjacent.text : Adjacent → String
  | .timepoint id => toString id
  | .linked index => toString index.toInt

/-- A horizon of a stage. -/
structure Horizon where
  /-- The name of the horizon. -/
  name : HorizonName
  /-- The boundary it is declared with. -/
  declared : Boundary
  /-- The boundary which applies: `linear` instead of `linked` where there is nothing to link to. -/
  boundary : Boundary
  /-- Its timepoints, in order. -/
  timepoints : List Nat
  /-- Its duration in hours. -/
  duration : Float
  deriving DecidableEq

/-- The place of a timepoint on a timeline. -/
structure Link where
  /-- The timepoint. -/
  timepoint : Nat
  /-- The horizon which contains it. -/
  horizon : HorizonName
  /-- The timepoint before it. -/
  previous : Option Adjacent
  /-- The timepoint after it. -/
  next : Option Adjacent
  deriving DecidableEq

/-- The timepoints of a stage split into horizons of one balancing type. -/
structure Timeline where
  /-- The balancing type. -/
  balancingType : BalancingType
  /-- The horizons, by their first timepoints. -/
  horizons : List Horizon
  /-- The neighbours of the timepoints, in order. -/
  links : List Link
  deriving DecidableEq

/-- A timepoint carried over to the next subproblem. -/
structure LinkedTimepoint where
  /-- The index it is carried over with, which is not positive. -/
  index : Int32
  /-- The timepoint, in the subproblem which provides it. -/
  timepoint : Timepoint
  deriving DecidableEq

/-- A stage of a subproblem. -/
structure Stage where
  /-- The stage. -/
  id : Nat
  /-- Its name. -/
  name : String
  /-- Its timepoints, in order. -/
  timepoints : List Timepoint
  /-- Its timelines, one for each balancing type. -/
  timelines : List Timeline
  /-- The timepoints carried over to the next subproblem, in the order `0, -1, -2, …`. -/
  linkedTimepoints : List LinkedTimepoint
  /-- The timepoints carried over from the previous subproblem, in the same order; there are none
      unless some horizon has the boundary `linked`. -/
  linkedPredecessors : List LinkedTimepoint
  deriving DecidableEq

/-- A subproblem. -/
structure Subproblem where
  /-- The subproblem. -/
  id : Nat
  /-- Its stages, in order. -/
  stages : List Stage
  deriving DecidableEq

/-- The temporal hierarchy of a fragment. -/
structure Hierarchy where
  /-- The temporal fragment. -/
  fragment : Nat
  /-- The periods, in order. -/
  periods : List Period
  /-- The subproblems, in order. -/
  subproblems : List Subproblem
  deriving DecidableEq

/-- An index has no predecessor because it is the least there is. -/
inductive IndexOverflow where
  /-- The index before the least one. -/
  | below
  deriving DecidableEq, Repr

/-- The message of an overflow. -/
def IndexOverflow.message : IndexOverflow → String
  | .below => "attempt to subtract with overflow"

/-- The index before another one. -/
def indexBefore (index : Int32) : Except IndexOverflow Int32 :=
  if index = Int32.minValue then .error .below else .ok (index - 1)

namespace Stage

variable (stage : Stage)

/-- The balancing types of the stage. -/
def balancingTypes : List BalancingType := stage.timelines.map Timeline.balancingType

/-- The timeline of a balancing type. -/
def timeline? (balancingType : BalancingType) : Option Timeline :=
  stage.timelines.find? (·.balancingType == balancingType)

/-- The place of a timepoint on the timeline of a balancing type. -/
def link? (timepoint : Nat) (balancingType : BalancingType) : Option Link :=
  (stage.timeline? balancingType).bind fun timeline =>
    timeline.links.find? (·.timepoint == timepoint)

/-- The horizon of a timepoint for a balancing type. -/
def horizonOf (timepoint : Nat) (balancingType : BalancingType) : Option HorizonName :=
  (stage.link? timepoint balancingType).map Link.horizon

/-- The neighbour before a timepoint for a balancing type. -/
def previous (timepoint : Nat) (balancingType : BalancingType) : Option Adjacent :=
  (stage.link? timepoint balancingType).bind Link.previous

/-- The neighbour after a timepoint for a balancing type. -/
def next (timepoint : Nat) (balancingType : BalancingType) : Option Adjacent :=
  (stage.link? timepoint balancingType).bind Link.next

/-- The neighbour before the timepoint carried over with an index: the one with the index before,
    unless the index is not one of those carried over or is the earliest of them.

    The index before is formed in any case, so the least index overflows. -/
def linkedPredecessor (index : Int32) : Except IndexOverflow (Option Adjacent) :=
  match stage.linkedPredecessors.getLast? with
  | none => .ok none
  | some earliest => do
    let before ← indexBefore index
    return if earliest.index < index ∧ index ≤ 0 then some (.linked before) else none

end Stage

namespace Hierarchy

variable (h : Hierarchy)

/-- Every stage with its subproblem, in order. -/
def stages : List (Nat × Stage) :=
  h.subproblems.flatMap fun subproblem => subproblem.stages.map fun stage => (subproblem.id, stage)

/-- A stage of a subproblem. -/
def stage? (subproblem stage : Nat) : Option Stage :=
  (h.subproblems.find? (·.id == subproblem)).bind fun p => p.stages.find? (·.id == stage)

/-- The largest number of stages of a subproblem. -/
def maxStageCount : Nat := (h.subproblems.map (·.stages.length)).foldl max 0

end Hierarchy

end CapacityExpansion.Temporal
