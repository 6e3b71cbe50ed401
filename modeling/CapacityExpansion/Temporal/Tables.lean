/-!
# Temporal tables

The temporal structure of a model is described by seven flat tables. *Periods*
are the investment periods. *Subproblems* are solved one after the other, each
in one or more *stages*; a stage has *timepoints*, each belonging to a period.
For each *balancing type* (a day, a year) the timepoints of a stage are grouped
into *horizons*, over which a balancing constraint applies; what happens at the
ends of a horizon is its *boundary*. A timepoint gets into a horizon either by a
row of its own or by the span of the horizon, its first and its last timepoint.

The tables are kept as given. Nothing here says that they fit together: that is
what resolving them finds out (`CapacityExpansion.Temporal.Resolution`).
-/

namespace CapacityExpansion.Temporal

/-- The name of a balancing type. -/
abbrev BalancingType := String

/-- The name of a horizon, unique for its subproblem and balancing type. -/
abbrev HorizonName := String

/-- What happens at the ends of a horizon. -/
inductive Boundary where
  /-- The last timepoint is followed by the first. -/
  | circular
  /-- The first timepoint has no predecessor and the last no successor. -/
  | linear
  /-- The first timepoint is preceded by timepoints of the previous subproblem. -/
  | linked
  deriving DecidableEq, Repr

/-- The name of a boundary. -/
def Boundary.name : Boundary → String
  | .circular => "circular"
  | .linear => "linear"
  | .linked => "linked"

/-- All boundaries. -/
def Boundary.all : List Boundary := [.circular, .linear, .linked]

/-- An investment period. -/
structure Period where
  /-- The period, usually its first year. -/
  id : Nat
  /-- The discount factor of costs in the period. -/
  discountFactor : Float
  /-- The number of years the period stands for. -/
  yearsRepresented : Float
  deriving DecidableEq

/-- The smallest unit of time. -/
structure Timepoint where
  /-- The timepoint, unique in its stage. -/
  id : Nat
  /-- The period the timepoint belongs to. -/
  period : Nat
  /-- Its duration in hours. -/
  hours : Float
  /-- Its weight in the objective. -/
  weight : Float
  /-- The index under which it is carried over to the next subproblem, if it is. -/
  linkedIndex : Option Int32
  /-- Its month. -/
  month : Option Nat
  /-- Its hour of the day. -/
  hourOfDay : Option Float
  deriving DecidableEq

/-- A stage of a subproblem. -/
structure StageRow where
  /-- The subproblem. -/
  subproblem : Nat
  /-- The stage, unique in the subproblem. -/
  stage : Nat
  /-- The name of the stage. -/
  name : String
  deriving DecidableEq

/-- A timepoint of a stage. -/
structure TimepointRow where
  /-- The subproblem. -/
  subproblem : Nat
  /-- The stage. -/
  stage : Nat
  /-- The timepoint. -/
  timepoint : Timepoint
  deriving DecidableEq

/-- A horizon of a subproblem, shared by its stages. -/
structure HorizonRow where
  /-- The subproblem. -/
  subproblem : Nat
  /-- The balancing type. -/
  balancingType : BalancingType
  /-- The horizon, unique for the subproblem and the balancing type. -/
  horizon : HorizonName
  /-- The boundary it is declared with. -/
  boundary : Boundary
  deriving DecidableEq

/-- A timepoint of a horizon. -/
structure MemberRow where
  /-- The subproblem. -/
  subproblem : Nat
  /-- The stage. -/
  stage : Nat
  /-- The timepoint. -/
  timepoint : Nat
  /-- The balancing type. -/
  balancingType : BalancingType
  /-- The horizon. -/
  horizon : HorizonName
  deriving DecidableEq

/-- The timepoints of a horizon from a first to a last one. -/
structure SpanRow where
  /-- The subproblem. -/
  subproblem : Nat
  /-- The stage. -/
  stage : Nat
  /-- The balancing type. -/
  balancingType : BalancingType
  /-- The horizon. -/
  horizon : HorizonName
  /-- The first timepoint. -/
  first : Nat
  /-- The last timepoint. -/
  last : Nat
  deriving DecidableEq

/-- The tables of one temporal fragment. -/
structure Tables where
  /-- The periods. -/
  periods : List Period := []
  /-- The subproblems. -/
  subproblems : List Nat := []
  /-- The stages; a subproblem without any has a single one. -/
  stages : List StageRow := []
  /-- The timepoints of every stage. -/
  timepoints : List TimepointRow := []
  /-- The horizons of every subproblem. -/
  horizons : List HorizonRow := []
  /-- The timepoints of the horizons, one by one. -/
  members : List MemberRow := []
  /-- The spans of the horizons; if there are any, `members` is not used. -/
  spans : List SpanRow := []
  deriving DecidableEq

/-- The tables without rows. -/
def Tables.empty : Tables := {}

instance : Inhabited Tables := ⟨.empty⟩

end CapacityExpansion.Temporal
