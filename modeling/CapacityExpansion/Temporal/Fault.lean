import CapacityExpansion.Decimal.Layout
import CapacityExpansion.Temporal.Tables

/-!
# Faults of temporal tables

What can be wrong with the temporal tables, and where. Resolving stops at the
first defect, since what follows is meaningless for tables which do not fit
together. A linked boundary with nothing to link to is no defect: it is
*demoted* to a linear one, and the demotion is reported.
-/

namespace CapacityExpansion.Temporal

/-- A place in the tables of a temporal fragment. -/
structure Location where
  /-- The temporal fragment. -/
  fragment : Nat
  /-- The subproblem, if the place is in one. -/
  subproblem : Option Nat := none
  /-- The stage, if the place is in one. -/
  stage : Option Nat := none
  /-- The balancing type and the horizon, if the place is in one. -/
  horizon : Option (BalancingType × HorizonName) := none
  deriving DecidableEq, Repr

namespace Location

variable (l : Location)

/-- The place of a whole fragment. -/
def ofFragment (fragment : Nat) : Location := { fragment }

/-- The place of a subproblem. -/
def inSubproblem (subproblem : Nat) : Location := { l with subproblem := some subproblem }

/-- The place of a stage. -/
def inStage (stage : Nat) : Location := { l with stage := some stage }

/-- The place of a horizon. -/
def inHorizon (balancingType : BalancingType) (horizon : HorizonName) : Location :=
  { l with horizon := some (balancingType, horizon) }

/-- The text of a place, from the fragment inwards. -/
def text : String :=
  s!"temporal fragment {l.fragment}" ++
    (l.subproblem.elim "" fun p => s!", subproblem {p}") ++
    (l.stage.elim "" fun s => s!", stage {s}") ++
    (l.horizon.elim "" fun h => ", horizon " ++ h.2 ++ " (balancing type " ++ h.1 ++ ")")

end Location

/-- A column whose values must be finite and positive. -/
inductive Quantity where
  /-- The discount factor of a period. -/
  | discountFactor
  /-- The years a period stands for. -/
  | yearsRepresented
  /-- The hours of a timepoint. -/
  | hours
  /-- The weight of a timepoint. -/
  | weight
  deriving DecidableEq, Repr

/-- The name of the column. -/
def Quantity.name : Quantity → String
  | .discountFactor => "discount_factor"
  | .yearsRepresented => "number_years_represented"
  | .hours => "number_of_hours_in_timepoint"
  | .weight => "timepoint_weight"

/-- A rule for the indices of the timepoints carried over, taken in the order of the timepoints. -/
inductive IndexRule where
  /-- No index is positive. -/
  | notPositive
  /-- Every index is larger than the one before. -/
  | increasing
  /-- Every index is the successor of the one before. -/
  | contiguous
  /-- The last index is 0. -/
  | endsAtZero
  deriving DecidableEq, Repr

/-- The text of a rule. -/
def IndexRule.text : IndexRule → String
  | .notPositive => "indices must not be positive"
  | .increasing => "indices must be strictly increasing in timepoint order"
  | .contiguous => "indices must be contiguous"
  | .endsAtZero => "the last index must be 0"

/-- What is wrong with the tables. -/
inductive Defect where
  /-- There are no periods. -/
  | noPeriods
  /-- Two rows declare the same period. -/
  | duplicatePeriod (period : Nat)
  /-- A quantity of a period is not finite and positive. -/
  | invalidPeriodValue (period : Nat) (quantity : Quantity) (value : Float)
  /-- There are no subproblems. -/
  | noSubproblems
  /-- Two rows declare the same subproblem. -/
  | duplicateSubproblem
  /-- A row names a subproblem which no row declares. -/
  | undeclaredSubproblem
  /-- Two rows declare the same stage of a subproblem. -/
  | duplicateStage
  /-- A row names a stage which no row declares. -/
  | undeclaredStage
  /-- A stage has no timepoints. -/
  | noTimepoints
  /-- Two rows declare the same timepoint of a stage. -/
  | duplicateTimepoint (timepoint : Nat)
  /-- A timepoint is 0. -/
  | nonPositiveTimepoint (timepoint : Nat)
  /-- A timepoint belongs to a period which no row declares. -/
  | undeclaredPeriod (timepoint period : Nat)
  /-- A quantity of a timepoint is not finite and positive. -/
  | invalidTimepointValue (timepoint : Nat) (quantity : Quantity) (value : Float)
  /-- Two rows declare the same horizon. -/
  | duplicateHorizon
  /-- A timepoint is put into a horizon which no row declares. -/
  | undeclaredHorizon (timepoint : Nat)
  /-- A row puts a timepoint into a horizon which its stage does not have. -/
  | unknownTimepoint (timepoint : Nat)
  /-- The first timepoint of a span comes after its last. -/
  | startAfterEnd (first last : Nat)
  /-- A horizon has no timepoints in a stage. -/
  | emptyHorizon
  /-- The timepoints of a horizon do not follow each other in their stage. -/
  | nonContiguousHorizon
  /-- A timepoint is put into two horizons of a balancing type. -/
  | duplicateHorizonMembership (timepoint : Nat) (balancingType : BalancingType)
      (first second : HorizonName)
  /-- A timepoint is in no horizon of a balancing type. -/
  | uncoveredTimepoint (timepoint : Nat) (balancingType : BalancingType)
  /-- The indices of the timepoints carried over from a stage break a rule. -/
  | malformedLinkedTimepoints (indices : List Int32) (rule : IndexRule)
  /-- A horizon is linked to a subproblem which carries nothing over. -/
  | missingLinkedTimepoints (previous : Nat)
  /-- A stage splits its timepoints otherwise than the first stage of its subproblem. -/
  | stageHorizonMismatch (first : Nat)
  deriving DecidableEq, Repr

/-- The message of a defect. -/
def Defect.message : Defect → String
  | .noPeriods => "No periods are defined"
  | .duplicatePeriod period => s!"Period {period} is defined more than once"
  | .invalidPeriodValue period quantity value =>
    "Invalid " ++ quantity.name ++ s!" for period {period}: " ++ Decimal.messages.write value
  | .noSubproblems => "No subproblems are defined"
  | .duplicateSubproblem => "Subproblem is defined more than once"
  | .undeclaredSubproblem => "Subproblem is not declared"
  | .duplicateStage => "Stage is defined more than once"
  | .undeclaredStage => "Stage is not declared for this subproblem"
  | .noTimepoints => "No timepoints are defined"
  | .duplicateTimepoint timepoint => s!"Timepoint {timepoint} is defined more than once"
  | .nonPositiveTimepoint timepoint => s!"Timepoint IDs must be positive, but found {timepoint}"
  | .undeclaredPeriod timepoint period =>
    s!"Timepoint {timepoint} refers to undeclared period {period}"
  | .invalidTimepointValue timepoint quantity value =>
    "Invalid " ++ quantity.name ++ s!" for timepoint {timepoint}: " ++ Decimal.messages.write value
  | .duplicateHorizon => "Horizon is defined more than once"
  | .undeclaredHorizon timepoint =>
    s!"Timepoint {timepoint} is assigned to a horizon which is not declared"
  | .unknownTimepoint timepoint =>
    s!"Timepoint {timepoint} does not exist in this subproblem and stage"
  | .startAfterEnd first last =>
    s!"Horizon starts at timepoint {first}, which comes after its end timepoint {last}"
  | .emptyHorizon => "Horizon has no timepoints"
  | .nonContiguousHorizon => "Horizon timepoints are not contiguous"
  | .duplicateHorizonMembership timepoint balancingType first second =>
    s!"Timepoint {timepoint} belongs to more than one horizon of balancing type " ++
      s!"{balancingType} ({first} and {second})"
  | .uncoveredTimepoint timepoint balancingType =>
    s!"Timepoint {timepoint} is not in any horizon of balancing type {balancingType}"
  | .malformedLinkedTimepoints indices rule =>
    "Malformed linked timepoints [" ++ ", ".intercalate (indices.map fun i => toString i.toInt) ++
      "]: " ++ rule.text
  | .missingLinkedTimepoints previous =>
    s!"Horizon has a linked boundary but subproblem {previous} provides no linked timepoints " ++
      "for this stage"
  | .stageHorizonMismatch first =>
    s!"Horizon covers different timepoints than in stage {first} of this subproblem"

/-- A defect and its place. -/
structure Fault where
  /-- Where the defect is. -/
  location : Location
  /-- What is wrong. -/
  defect : Defect
  deriving DecidableEq

/-- The message of a fault. -/
def Fault.message (fault : Fault) : String :=
  fault.defect.message ++ " (" ++ fault.location.text ++ ")"

/-- Why a linked boundary is treated as a linear one. -/
inductive DemotionReason where
  /-- The horizon is not the first one of its balancing type. -/
  | notFirst
  /-- There is no previous subproblem. -/
  | noPrevious
  deriving DecidableEq, Repr

/-- A linked boundary treated as a linear one. -/
structure Demotion where
  /-- The horizon. -/
  location : Location
  /-- The reason. -/
  reason : DemotionReason
  deriving DecidableEq, Repr

/-- The warning about a demotion. -/
def Demotion.message (demotion : Demotion) : String :=
  demotion.location.text ++ ": " ++
    match demotion.reason with
    | .notFirst =>
      "only the first horizon of a subproblem can be linked; treating boundary as linear"
    | .noPrevious => "there is no previous subproblem to link to; treating boundary as linear"

end CapacityExpansion.Temporal
