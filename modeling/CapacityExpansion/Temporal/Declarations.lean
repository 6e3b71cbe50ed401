import CapacityExpansion.Data.Checking
import CapacityExpansion.Data.OrderedSet
import CapacityExpansion.Data.Sorting
import CapacityExpansion.Temporal.Fault

/-!
# Declarations

What the temporal tables declare: periods, subproblems, the stages of a
subproblem, the timepoints of a stage and the horizons of a subproblem. Each is
read off the tables directly, in order of identifiers, so what a stage sees does
not depend on the order of the rows. The checks go through the rows of each
table in order, every row against those before it, and stop at the first fault.

* `Tables.stagesOf`, `Tables.timepointsOf`, `Tables.horizonsOf`: what is declared;
* `Tables.checkDeclarations`: whether the declarations fit together.
-/

namespace CapacityExpansion.Temporal

/-- Whether a quantity is finite and positive. -/
def isPositive (x : Float) : Bool := x.isFinite && 0 < x

/-! ## What the tables declare -/

namespace Tables

variable (t : Tables)

/-- The periods, in order. -/
def periodsInOrder : List Period := sortOn Period.id t.periods

/-- The subproblems, in order. -/
def subproblemsInOrder : List Nat := sortOn id t.subproblems

/-- The stage of a subproblem which declares none. -/
def defaultStage : Nat × String := (1, "")

/-- The stages declared for a subproblem. -/
def stageRows (subproblem : Nat) : List StageRow :=
  t.stages.filter (·.subproblem == subproblem)

/-- The stages of a subproblem and their names, in order. -/
def stagesOf (subproblem : Nat) : List (Nat × String) :=
  match t.stageRows subproblem with
  | [] => [defaultStage]
  | rows => sortOn Prod.fst (rows.map fun row => (row.stage, row.name))

/-- Whether a subproblem has a stage. -/
def hasStage (subproblem stage : Nat) : Bool :=
  (t.stagesOf subproblem).any (·.1 == stage)

/-- The timepoints of a stage, in order. -/
def timepointsOf (subproblem stage : Nat) : List Timepoint :=
  sortOn Timepoint.id
    ((t.timepoints.filter fun row => row.subproblem == subproblem && row.stage == stage).map
      TimepointRow.timepoint)

/-- The horizons declared for a subproblem and a balancing type. -/
def horizonsOf (subproblem : Nat) (balancingType : BalancingType) : List HorizonRow :=
  t.horizons.filter fun row => row.subproblem == subproblem && row.balancingType == balancingType

/-- Whether a horizon is declared. -/
def hasHorizon (subproblem : Nat) (balancingType : BalancingType) (horizon : HorizonName) : Bool :=
  (t.horizonsOf subproblem balancingType).any (·.horizon == horizon)

/-- The balancing types used anywhere in the tables: those of the first subproblem named, then
    those which only later ones have. -/
def balancingTypes : List BalancingType :=
  let subproblems := (OrderedSet.ofList (t.horizons.map HorizonRow.subproblem)).elements
  (OrderedSet.ofList (subproblems.flatMap fun subproblem =>
    (t.horizons.filter (·.subproblem == subproblem)).map HorizonRow.balancingType)).elements

/-! ## The rows one by one -/

variable (place : Location)

/-- A period has positive quantities and is declared once. -/
def checkPeriod (earlier : List Period) (row : Period) : Except Fault Unit := do
  require (isPositive row.discountFactor)
    ⟨place, .invalidPeriodValue row.id .discountFactor row.discountFactor⟩
  require (isPositive row.yearsRepresented)
    ⟨place, .invalidPeriodValue row.id .yearsRepresented row.yearsRepresented⟩
  require (row.id ∉ earlier.map Period.id) ⟨place, .duplicatePeriod row.id⟩

/-- A subproblem is declared once. -/
def checkSubproblem (earlier : List Nat) (subproblem : Nat) : Except Fault Unit :=
  require (subproblem ∉ earlier) ⟨place.inSubproblem subproblem, .duplicateSubproblem⟩

/-- A stage belongs to a declared subproblem and is declared once. -/
def checkStage (earlier : List StageRow) (row : StageRow) : Except Fault Unit := do
  let place := place.inSubproblem row.subproblem
  require (row.subproblem ∈ t.subproblems) ⟨place, .undeclaredSubproblem⟩
  require ((row.subproblem, row.stage) ∉ earlier.map fun r => (r.subproblem, r.stage))
    ⟨place.inStage row.stage, .duplicateStage⟩

/-- A timepoint belongs to a declared stage and period, is positive and has positive quantities,
    and is declared once in its stage. -/
def checkTimepoint (earlier : List TimepointRow) (row : TimepointRow) : Except Fault Unit := do
  let tp := row.timepoint
  let place := place.inSubproblem row.subproblem
  require (row.subproblem ∈ t.subproblems) ⟨place, .undeclaredSubproblem⟩
  let place := place.inStage row.stage
  require (t.hasStage row.subproblem row.stage) ⟨place, .undeclaredStage⟩
  require (tp.id ≠ 0) ⟨place, .nonPositiveTimepoint tp.id⟩
  require (tp.period ∈ t.periods.map Period.id) ⟨place, .undeclaredPeriod tp.id tp.period⟩
  require (isPositive tp.hours) ⟨place, .invalidTimepointValue tp.id .hours tp.hours⟩
  require (isPositive tp.weight) ⟨place, .invalidTimepointValue tp.id .weight tp.weight⟩
  require ((row.subproblem, row.stage, tp.id) ∉
      earlier.map fun r => (r.subproblem, r.stage, r.timepoint.id))
    ⟨place, .duplicateTimepoint tp.id⟩

/-- A horizon belongs to a declared subproblem and is declared once for its balancing type. -/
def checkHorizon (earlier : List HorizonRow) (row : HorizonRow) : Except Fault Unit := do
  let place := place.inSubproblem row.subproblem
  require (row.subproblem ∈ t.subproblems) ⟨place, .undeclaredSubproblem⟩
  require ((row.subproblem, row.balancingType, row.horizon) ∉
      earlier.map fun r => (r.subproblem, r.balancingType, r.horizon))
    ⟨place.inHorizon row.balancingType row.horizon, .duplicateHorizon⟩

/-- The declarations of all tables, table by table. -/
def checkDeclarations : Except Fault Unit := do
  require (t.periods ≠ []) ⟨place, .noPeriods⟩
  checkInOrder (checkPeriod place) [] t.periods
  require (t.subproblems ≠ []) ⟨place, .noSubproblems⟩
  checkInOrder (checkSubproblem place) [] t.subproblems
  checkInOrder (t.checkStage place) [] t.stages
  checkInOrder (t.checkTimepoint place) [] t.timepoints
  checkInOrder (t.checkHorizon place) [] t.horizons

end Tables

end CapacityExpansion.Temporal
