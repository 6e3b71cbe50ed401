import CapacityExpansion.Temporal.Timeline

/-!
# Resolving the temporal hierarchy

The temporal tables are checked against each other and become a hierarchy, or
the first fault is reported. The subproblems are resolved in order, each stage
with the timepoints which the same stage of the previous subproblem carries
over; the stages of a subproblem split their timepoints in the same way.

* `resolve`: the hierarchy of a temporal fragment, with the demotions found.
-/

namespace CapacityExpansion.Temporal

/-- A linked boundary applies somewhere on the timelines. -/
def anyLinked (timelines : List Timeline) : Bool :=
  timelines.any fun timeline => timeline.horizons.any (·.boundary == .linked)

/-- A stage of a subproblem, given the previous one. -/
def resolveStage (place : Location) (t : Tables) (rows : List MemberRow) (previous : Option Nat)
    (subproblem : Nat) (stage : Nat × String) : Resolving Stage := do
  let place := (place.inSubproblem subproblem).inStage stage.1
  let timepoints := t.timepointsOf subproblem stage.1
  require (timepoints ≠ []) (⟨place, .noTimepoints⟩ : Fault)
  let linkedTimepoints ← checkedCarriedOver place timepoints
  let source := previous.map fun p => ⟨p, carriedOver (t.timepointsOf p stage.1)⟩
  let timelines ← t.balancingTypes.mapM
    (resolveTimeline place t rows source subproblem stage.1 timepoints)
  return {
    id := stage.1
    name := stage.2
    timepoints
    timelines
    linkedTimepoints
    linkedPredecessors := if anyLinked timelines then source.elim [] Source.linked else [] }

/-- A stage has the horizons of another one, with the same timepoints. -/
def checkSameHorizons (place : Location) (first stage : Stage) : Except Fault Unit :=
  first.timelines.forM fun timeline => timeline.horizons.forM fun horizon =>
    let own := ((stage.timeline? timeline.balancingType).elim [] Timeline.horizons).find?
      (·.name == horizon.name)
    require (own.map Horizon.timepoints = some horizon.timepoints)
      ⟨place.inHorizon timeline.balancingType horizon.name, .stageHorizonMismatch first.id⟩

/-- A subproblem, given the previous one. -/
def resolveSubproblem (place : Location) (t : Tables) (rows : List MemberRow)
    (previous : Option Nat) (subproblem : Nat) : Resolving Subproblem := do
  let stages ← (t.stagesOf subproblem).mapM (resolveStage place t rows previous subproblem)
  if let first :: rest := stages then
    rest.forM fun stage =>
      checkSameHorizons ((place.inSubproblem subproblem).inStage stage.id) first stage
  return { id := subproblem, stages }

/-- The subproblems of a list, each following the one before. -/
def resolveSubproblems (place : Location) (t : Tables) (rows : List MemberRow) :
    (previous : Option Nat) → List Nat → Resolving (List Subproblem)
  | _, [] => return []
  | previous, subproblem :: rest => do
    let resolved ← resolveSubproblem place t rows previous subproblem
    return resolved :: (← resolveSubproblems place t rows (some subproblem) rest)

/-- The hierarchy of a temporal fragment. -/
def resolving (fragment : Nat) (t : Tables) : Resolving Hierarchy := do
  let place := Location.ofFragment fragment
  t.checkDeclarations place
  let rows ← t.membership place
  let subproblems ← resolveSubproblems place t rows none t.subproblemsInOrder
  return { fragment, periods := t.periodsInOrder, subproblems }

/-- What resolving temporal tables gives. -/
structure Resolution where
  /-- The hierarchy, or the first fault. -/
  outcome : Except Fault Hierarchy
  /-- The demotions found, in order, up to the fault if there is one. -/
  demotions : List Demotion

/-- Resolves the tables of a temporal fragment. -/
def resolve (fragment : Nat) (t : Tables) : Resolution :=
  let (outcome, demotions) := (resolving fragment t).run.run []
  { outcome, demotions }

end CapacityExpansion.Temporal
