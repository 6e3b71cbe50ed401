import CapacityExpansion.Temporal.Declarations
import CapacityExpansion.Temporal.Hierarchy

/-!
# Timepoints carried over

Some timepoints of a stage are carried over to the next subproblem. In the order
of the timepoints their indices are `-(k-1), …, -1, 0`; listed, they go back in
time from index 0.

* `brokenRule?`: the first rule which a list of indices breaks;
* `carriedOver`: the timepoints of a stage which are carried over.
-/

namespace CapacityExpansion.Temporal

/-- Whether a relation holds between every two neighbours of a list. -/
def neighbours {α : Type} (r : α → α → Bool) : List α → Bool
  | a :: b :: rest => r a b && neighbours r (b :: rest)
  | _ => true

/-- The first rule which the indices of a stage break, if they break one. -/
def brokenRule? (indices : List Int32) : Option IndexRule :=
  if indices.any (0 < ·) then some .notPositive
  else if !neighbours (fun a b => decide (a < b)) indices then some .increasing
  else if !neighbours (fun a b => a + 1 == b) indices then some .contiguous
  else if indices.getLast? ≠ some 0 then some .endsAtZero
  else none

/-- The timepoints with an index, going back in time. -/
def carriedOver (timepoints : List Timepoint) : List LinkedTimepoint :=
  (timepoints.filterMap fun tp => tp.linkedIndex.map fun index => ⟨index, tp⟩).reverse

/-- The timepoints carried over from a stage, if their indices follow the rules. -/
def checkedCarriedOver (place : Location) (timepoints : List Timepoint) :
    Except Fault (List LinkedTimepoint) :=
  let indices := timepoints.filterMap Timepoint.linkedIndex
  match indices, brokenRule? indices with
  | _ :: _, some rule => .error ⟨place, .malformedLinkedTimepoints indices rule⟩
  | _, _ => .ok (carriedOver timepoints)

end CapacityExpansion.Temporal
