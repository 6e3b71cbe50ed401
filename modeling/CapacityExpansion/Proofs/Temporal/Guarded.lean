import CapacityExpansion.Proofs.Data.Translation
import CapacityExpansion.Proofs.Temporal.Reporting
import CapacityExpansion.Temporal.Resolution

/-!
# Guarded resolving

Some steps of resolving are operations with a range: a number is subtracted which
must not be the larger one, an element is taken out of a list which must have it,
an index or a position must have a successor. Resolving as it is defined has
values for them outside of their ranges as well. Here it is defined once more,
with *guarded* operations, which stop outside of their ranges.

* `Panic`: what stops;
* `minus`, `element`, `positionAfter`, `indexAfter`, `spanLength`: the guarded
  operations;
* `Guarded`: resolving which may be stopped;
* `Guarded.links`, `Guarded.rowsOfSpan`, `Guarded.horizonOf`,
  `Guarded.brokenRule?`: the steps with such operations;
* `resolveGuarded`: the hierarchy of a temporal fragment.
-/

namespace CapacityExpansion.Temporal

/-! ## Guarded operations -/

/-- An operation outside of its range. -/
inductive Panic where
  /-- A number is subtracted from a smaller one. -/
  | underflow
  /-- There is no next position or index. -/
  | overflow
  /-- A list has no element at a position. -/
  | outOfBounds
  deriving DecidableEq, Repr

/-- The difference of a number and one which is not larger. -/
def minus (a b : Nat) : Except Panic Nat := if b ≤ a then .ok (a - b) else .error .underflow

/-- The element of a list at a position. -/
def element {α : Type} (l : List α) (i : Nat) : Except Panic α :=
  match l[i]? with
  | some a => .ok a
  | none => .error .outOfBounds

/-- The position after one in a list of some length. -/
def positionAfter (length i : Nat) : Except Panic Nat :=
  if i < length then .ok (i + 1) else .error .overflow

/-- The index after another one, which must not be the largest. -/
def indexAfter (i : Int32) : Except Panic Int32 :=
  if i = Int32.maxValue then .error .overflow else .ok (i + 1)

/-- The number of positions from a first one to a last one, in a list of some length. -/
def spanLength (length first last : Nat) : Except Panic Nat :=
  if last < first then .error .underflow
  else if length ≤ last then .error .overflow
  else .ok (last - first + 1)

/-- Whether a relation holds between every two neighbours of a list. The first two between which it
    does not hold are the last ones for which it is evaluated. -/
def neighboursM {α : Type} (r : α → α → Except Panic Bool) : List α → Except Panic Bool
  | a :: b :: rest => do
    if ← r a b then neighboursM r (b :: rest) else return false
  | _ => return true

section Ranges

variable {m n length i first last : Nat}

theorem minus_eq_ok_iff : minus m n = .ok i ↔ n ≤ m ∧ i = m - n := by
  unfold minus
  split <;> simp [*, eq_comm]

theorem element_eq_ok_iff {α : Type} {l : List α} {a : α} :
    element l i = .ok a ↔ l[i]? = some a := by
  unfold element
  split <;> simp [*]

theorem positionAfter_eq_ok_iff : positionAfter length i = .ok n ↔ i < length ∧ n = i + 1 := by
  unfold positionAfter
  split <;> simp [*, eq_comm]

theorem indexAfter_eq_ok_iff {i j : Int32} :
    indexAfter i = .ok j ↔ i ≠ Int32.maxValue ∧ j = i + 1 := by
  unfold indexAfter
  split <;> simp [*, eq_comm]

theorem spanLength_eq_ok_iff :
    spanLength length first last = .ok n ↔ first ≤ last ∧ last < length ∧ n = last - first + 1 := by
  unfold spanLength
  split_ifs with hlt hle
  · exact iff_of_false nofun fun h => Nat.not_lt.2 h.1 hlt
  · exact iff_of_false nofun fun h => Nat.not_lt.2 hle h.2.1
  · rw [Except.ok.injEq, eq_comm]
    exact ⟨fun e => ⟨Nat.not_lt.1 hlt, Nat.not_le.1 hle, e⟩, fun h => h.2.2⟩

end Ranges

/-! ## Guarded steps -/

/-- Resolving which may be stopped. -/
abbrev Guarded := ExceptT Fault (StateT (List Demotion) (Except Panic))

namespace Guarded

/-- A check without such operations. -/
def ofCheck : Translation (Except Fault) Guarded where
  apply x := liftM x
  apply_pure _ := rfl
  apply_bind x k := by cases x <;> rfl

/-- A computation which is not stopped. -/
def unstopped {α : Type} (x : Resolving α) : Guarded α := ExceptT.mk fun log => .ok (x.run.run log)

/-- A computation without such operations. -/
def ofResolving : Translation Resolving Guarded where
  apply := unstopped
  apply_pure _ := rfl
  apply_bind x k := by
    refine ExceptT.ext (StateT.ext fun log => ?_)
    rw [ExceptT.run_bind, StateT.run_bind]
    change Except.ok ((x >>= k).run.run log) = Except.ok (x.run.run log) >>= _
    rw [Resolving.run_bind]
    rcases x.run.run log with ⟨_ | _, _⟩ <;> rfl

/-- The first rule which the indices of a stage break. -/
def brokenRule? (indices : List Int32) : Except Panic (Option IndexRule) := do
  if indices.any (0 < ·) then return some .notPositive
  if !neighbours (fun a b => decide (a < b)) indices then return some .increasing
  if !(← neighboursM (fun a b => return (← indexAfter a) == b) indices) then
    return some .contiguous
  if indices.getLast? ≠ some 0 then return some .endsAtZero
  return none

/-- The timepoints carried over from a stage, if their indices follow the rules. -/
def checkedCarriedOver (place : Location) (timepoints : List Timepoint) :
    Guarded (List LinkedTimepoint) := do
  let indices := timepoints.filterMap Timepoint.linkedIndex
  if indices.isEmpty then return carriedOver timepoints
  match ← brokenRule? indices with
  | some rule => throw ⟨place, .malformedLinkedTimepoints indices rule⟩
  | none => return carriedOver timepoints

/-- The rows which a span stands for. -/
def rowsOfSpan (t : Tables) (place : Location) (row : SpanRow) : Guarded (List MemberRow) := do
  let place := ((place.inSubproblem row.subproblem).inStage row.stage).inHorizon
    row.balancingType row.horizon
  t.checkStageOf place row.subproblem row.stage
  let timepoints := (t.timepointsOf row.subproblem row.stage).map Timepoint.id
  let first ← Tables.positionOf place timepoints row.first
  let last ← Tables.positionOf place timepoints row.last
  require (first ≤ last) (⟨place, .startAfterEnd row.first row.last⟩ : Fault)
  let length ← spanLength timepoints.length first last
  return ((timepoints.drop first).take length).map fun timepoint =>
    ⟨row.subproblem, row.stage, timepoint, row.balancingType, row.horizon⟩

/-- The rows which put timepoints into horizons. -/
def membership (t : Tables) (place : Location) : Guarded (List MemberRow) :=
  match t.spans with
  | [] => ofCheck.apply (t.collectMembers place (t.rowsOfMember place) t.members)
  | spans => spans.foldlM (fun soFar row => do
      (← rowsOfSpan t place row).foldlM (fun rows r => ofCheck.apply (t.addMember place rows r))
        soFar) []

/-- A declared horizon with the timepoints put into it, of `length` timepoints in the stage. -/
def horizonOf (place : Location) (length : Nat) (members : List (Nat × Timepoint × HorizonName))
    (row : HorizonRow) : Guarded (Nat × Horizon) := do
  let place := place.inHorizon row.balancingType row.horizon
  let own := members.filter (·.2.2 == row.horizon)
  if own.isEmpty then throw ⟨place, .emptyHorizon⟩
  let contiguous ← neighboursM (fun a b => return (← positionAfter length a.1) == b.1) own
  require contiguous (⟨place, .nonContiguousHorizon⟩ : Fault)
  let first ← element own 0
  return (first.1,
    { name := row.horizon
      declared := row.boundary
      boundary := row.boundary
      timepoints := own.map (·.2.1.id)
      duration := totalHours (own.map (·.2.1)) })

/-- The horizons of a stage for a balancing type, ordered by their first timepoints. -/
def orderedHorizons (place : Location) (rows : List MemberRow) (subproblem stage : Nat)
    (balancingType : BalancingType) (timepoints : List Timepoint) (declared : List HorizonRow) :
    Guarded (List Horizon) := do
  let members ← placed place rows subproblem stage balancingType timepoints
  let horizons ← declared.mapM (horizonOf place timepoints.length members)
  return (sortOn Prod.fst horizons).map Prod.snd

/-- The timepoint before the one at a position of a horizon whose last position is `last`. -/
def previousOf (horizon : Horizon) (last i : Nat) : Except Panic (Option Adjacent) := do
  if 0 < i then return some (.timepoint (← element horizon.timepoints (← minus i 1)))
  match horizon.boundary with
  | .circular => return some (.timepoint (← element horizon.timepoints last))
  | .linear => return none
  | .linked => return some (.linked 0)

/-- The timepoint after the one at a position. -/
def nextOf (horizon : Horizon) (last i : Nat) : Except Panic (Option Adjacent) := do
  if i < last then
    return some (.timepoint (← element horizon.timepoints
      (← positionAfter horizon.timepoints.length i)))
  if horizon.boundary = .circular then
    return some (.timepoint (← element horizon.timepoints 0))
  return none

/-- The links of the timepoints of a horizon. -/
def links (horizon : Horizon) : Except Panic (List Link) := do
  let last ← minus horizon.timepoints.length 1
  horizon.timepoints.zipIdx.mapM fun (timepoint, i) => do
    return ⟨timepoint, horizon.name, ← previousOf horizon last i, ← nextOf horizon last i⟩

/-- The horizons of a timeline with the boundaries which apply, each with its links. -/
def linkedHorizons (place : Location) (balancingType : BalancingType) (source : Option Source) :
    (isFirst : Bool) → List Horizon → Guarded (List (Horizon × List Link))
  | _, [] => return []
  | isFirst, horizon :: rest => do
    let boundary ← ofResolving.apply <| effectiveBoundary
      (place.inHorizon balancingType horizon.name) source isFirst horizon.declared
    let links ← links { horizon with boundary }
    return ({ horizon with boundary }, links) ::
      (← linkedHorizons place balancingType source false rest)

/-- The timeline of a stage for a balancing type. -/
def resolveTimeline (place : Location) (t : Tables) (rows : List MemberRow)
    (source : Option Source) (subproblem stage : Nat) (timepoints : List Timepoint)
    (balancingType : BalancingType) : Guarded Timeline := do
  let ordered ← orderedHorizons place rows subproblem stage balancingType timepoints
    (t.horizonsOf subproblem balancingType)
  let horizons ← linkedHorizons place balancingType source true ordered
  return { balancingType, horizons := horizons.map Prod.fst, links := horizons.flatMap Prod.snd }

/-- A stage of a subproblem, given the previous one. -/
def resolveStage (place : Location) (t : Tables) (rows : List MemberRow) (previous : Option Nat)
    (subproblem : Nat) (stage : Nat × String) : Guarded Stage := do
  let place := (place.inSubproblem subproblem).inStage stage.1
  let timepoints := t.timepointsOf subproblem stage.1
  require (timepoints ≠ []) (⟨place, .noTimepoints⟩ : Fault)
  let linkedTimepoints ← checkedCarriedOver place timepoints
  let source := previous.map fun p => ⟨p, carriedOver (t.timepointsOf p stage.1)⟩
  let timelines ← t.balancingTypes.mapM
    (resolveTimeline place t rows source subproblem stage.1 timepoints)
  return {
    id := stage.1
    name := stage.2
    timepoints
    timelines
    linkedTimepoints
    linkedPredecessors := if anyLinked timelines then source.elim [] Source.linked else [] }

/-- A subproblem, given the previous one. -/
def resolveSubproblem (place : Location) (t : Tables) (rows : List MemberRow)
    (previous : Option Nat) (subproblem : Nat) : Guarded Subproblem := do
  let stages ← (t.stagesOf subproblem).mapM (resolveStage place t rows previous subproblem)
  if let first :: rest := stages then
    rest.forM fun stage => ofCheck.apply <|
      checkSameHorizons ((place.inSubproblem subproblem).inStage stage.id) first stage
  return { id := subproblem, stages }

/-- The subproblems of a list, each following the one before. -/
def resolveSubproblems (place : Location) (t : Tables) (rows : List MemberRow) :
    (previous : Option Nat) → List Nat → Guarded (List Subproblem)
  | _, [] => return []
  | previous, subproblem :: rest => do
    let resolved ← resolveSubproblem place t rows previous subproblem
    return resolved :: (← resolveSubproblems place t rows (some subproblem) rest)

/-- The hierarchy of a temporal fragment. -/
def resolving (fragment : Nat) (t : Tables) : Guarded Hierarchy := do
  let place := Location.ofFragment fragment
  t.checkDeclarations place
  let rows ← membership t place
  let subproblems ← resolveSubproblems place t rows none t.subproblemsInOrder
  return { fragment, periods := t.periodsInOrder, subproblems }

end Guarded

/-- Resolves the tables of a temporal fragment, or stops. -/
def resolveGuarded (fragment : Nat) (t : Tables) : Except Panic Resolution := do
  let (outcome, demotions) ← (Guarded.resolving fragment t).run.run []
  return { outcome, demotions }

end CapacityExpansion.Temporal
