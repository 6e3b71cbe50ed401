import CapacityExpansion.Proofs.Temporal.Defects
import CapacityExpansion.Proofs.Temporal.Safety

/-!
# The check of indices

Timepoints are carried over from a stage under indices. In the order of the timepoints
these have to be `-(k-1), …, -1, 0`, and they are checked in four steps, a rule each:
no index is positive, they increase, they follow each other, and the last one is 0.
Here the steps are put together. What passes all of them is that one list for each
length, and else the first broken rule is reported, with the rules read as rules for
integers. For the successor of an index is formed only where a larger one is known to
follow, and so it never overflows.

A stage without indices carries nothing over, and is not checked.

* `CarriesOver`: what is carried over from a stage, said without the check;
* `carriesOver_iff`: it can be if and only if the indices are as they have to be;
* `checkedCarriedOver_error_iff`: what is reported else;
* `checkedCarriedOver_exact`: the check of a list of indices, and that of a stage.
-/

namespace CapacityExpansion.Temporal

variable {tps : List Timepoint} {l : List LinkedTimepoint} {place : Location}

/-- The timepoints which have an index are carried over, back in time, each under its index, and
    these are `0, -1, -2, …`. -/
structure CarriesOver (tps : List Timepoint) (l : List LinkedTimepoint) : Prop where
  timepoints :
    l.map LinkedTimepoint.timepoint = (tps.filter fun tp => tp.linkedIndex.isSome).reverse
  index : ∀ m ∈ l, m.timepoint.linkedIndex = some m.index
  countsDown : CountsDown l

theorem map_timepoint_carriedOver : (carriedOver tps).map LinkedTimepoint.timepoint =
    (tps.filter fun tp => tp.linkedIndex.isSome).reverse := by
  rw [carriedOver, List.map_reverse, List.map_filterMap, ← List.filterMap_eq_filter]
  congr 2
  funext tp
  cases h : tp.linkedIndex <;> simp [Option.guard, h]

/-- What is carried over can be read off its timepoints. -/
theorem filterMap_map_timepoint (h : ∀ m ∈ l, m.timepoint.linkedIndex = some m.index) :
    (l.map LinkedTimepoint.timepoint).filterMap
      (fun tp => tp.linkedIndex.map fun index => (⟨index, tp⟩ : LinkedTimepoint)) = l := by
  have hself : ∀ m ∈ l, (m.timepoint.linkedIndex.map fun index =>
      (⟨index, m.timepoint⟩ : LinkedTimepoint)) = some m := by
    intro m hm
    rw [h m hm, Option.map_some]
  rw [List.filterMap_map]
  exact (List.filterMap_congr hself).trans List.filterMap_some

/-- Timepoints can be carried over exactly if their indices count to zero, and only in one way. -/
theorem carriesOver_iff : CarriesOver tps l ↔
    CountsToZero (tps.filterMap Timepoint.linkedIndex) ∧ l = carriedOver tps := by
  have hindex : ∀ m ∈ carriedOver tps, m.timepoint.linkedIndex = some m.index :=
    fun m hm => (mem_carriedOver_iff.1 hm).2
  constructor
  · intro h
    obtain rfl : l = carriedOver tps := by
      rw [← filterMap_map_timepoint h.index, h.timepoints, ← map_timepoint_carriedOver,
        filterMap_map_timepoint hindex]
    exact ⟨countsDown_carriedOver_iff.1 h.countsDown, rfl⟩
  · rintro ⟨hcounts, rfl⟩
    exact ⟨map_timepoint_carriedOver, hindex, countsDown_carriedOver_iff.2 hcounts⟩

/-- What is reported of a stage are its indices and the first rule which they break. -/
theorem checkedCarriedOver_error_iff {fault : Fault} :
    checkedCarriedOver place tps = .error fault ↔
      ∃ rule, IndexRule.all.find? (·.IsBroken (tps.filterMap Timepoint.linkedIndex)) = some rule ∧
        fault =
          ⟨place, .malformedLinkedTimepoints (tps.filterMap Timepoint.linkedIndex) rule⟩ := by
  unfold checkedCarriedOver
  cases tps.filterMap Timepoint.linkedIndex with
  | nil =>
    have hnone : IndexRule.all.find? (·.IsBroken []) = none := by decide
    simp [hnone]
  | cons i indices =>
    rw [← brokenRule?_eq_find? (List.cons_ne_nil i indices)]
    cases hrule : brokenRule? (i :: indices) with
    | none => simp [hrule]
    | some rule => simp [hrule, eq_comm]

/-- Indices pass if and only if they are `-(k-1), …, -1, 0`; else the first rule which they break is
    found, and in no case a successor overflows. The timepoints of a stage which have an index are
    carried over back in time, under the indices `0, -1, …, -(k-1)`, none if none has an index; or
    else the indices are reported, and the first rule which they break. -/
theorem checkedCarriedOver_exact :
    (∀ indices : List Int32, indices ≠ [] →
      (brokenRule? indices = none ↔ CountsToZero indices) ∧
      brokenRule? indices = IndexRule.all.find? (·.IsBroken indices) ∧
      Guarded.brokenRule? indices = .ok (brokenRule? indices)) ∧
    ∀ (place : Location) (tps : List Timepoint),
      (∀ l, checkedCarriedOver place tps = .ok l ↔ CarriesOver tps l) ∧
      (tps.filterMap Timepoint.linkedIndex = [] → checkedCarriedOver place tps = .ok []) ∧
      (Increasing Timepoint.id tps → ∀ l, checkedCarriedOver place tps = .ok l →
        l.Pairwise fun m m' => m'.timepoint.id < m.timepoint.id) ∧
      ∀ fault, checkedCarriedOver place tps = .error fault ↔
        ∃ rule, IndexRule.all.find? (·.IsBroken (tps.filterMap Timepoint.linkedIndex)) = some rule ∧
          fault =
            ⟨place, .malformedLinkedTimepoints (tps.filterMap Timepoint.linkedIndex) rule⟩ := by
  refine ⟨fun indices hne => ⟨?_, ?_, ?_⟩, fun place tps => ⟨fun l => ?_, fun hnil => ?_, ?_, ?_⟩⟩
  · exact brokenRule?_eq_none_iff hne
  · exact brokenRule?_eq_find? hne
  · exact Guarded.brokenRule?_eq indices
  · rw [checkedCarriedOver_ok_iff, carriesOver_iff]
  · rw [checkedCarriedOver_ok_iff, hnil, eq_comm, carriedOver_eq_nil_iff]
    exact ⟨countsToZero_nil, hnil⟩
  · intro hinc l hok
    obtain ⟨-, rfl⟩ := checkedCarriedOver_ok_iff.1 hok
    exact pairwise_carriedOver hinc
  · exact fun _ => checkedCarriedOver_error_iff

/-- Three timepoints, of which the last two are carried over. -/
def threeTimepoints : List Timepoint :=
  let timepoint (τ : Nat) (index : Option Int32) : Timepoint :=
    ⟨τ, 2030, 1.0, 1.0, index, none, none⟩
  [timepoint 1 none, timepoint 2 (some (-1)), timepoint 3 (some 0)]

/-- The three timepoints pass, and so does the first one, without an index. The least index and the
    largest one do not, and nothing overflows. -/
theorem checkedCarriedOver_exact_threeTimepoints :
    (∃ l, checkedCarriedOver (.ofFragment 1) threeTimepoints = .ok l ∧
      l.map (fun m => (m.index, m.timepoint.id)) = [(0, 3), (-1, 2)] ∧
      l.Pairwise fun m m' => m'.timepoint.id < m.timepoint.id) ∧
    checkedCarriedOver (.ofFragment 1) (threeTimepoints.take 1) = .ok [] ∧
    Guarded.brokenRule? [Int32.minValue, 0] = .ok (some .contiguous) ∧
    Guarded.brokenRule? [Int32.maxValue, Int32.minValue] = .ok (some .notPositive) := by
  obtain ⟨hindices, hstage⟩ := checkedCarriedOver_exact
  obtain ⟨hok, -, hback, -⟩ := hstage (.ofFragment 1) threeTimepoints
  obtain ⟨-, hnone, -⟩ := hstage (.ofFragment 1) (threeTimepoints.take 1)
  obtain ⟨-, hleast, hleast'⟩ := hindices [Int32.minValue, 0] (by decide)
  obtain ⟨-, hlargest, hlargest'⟩ := hindices [Int32.maxValue, Int32.minValue] (by decide)
  have hthree : checkedCarriedOver (.ofFragment 1) threeTimepoints =
      .ok (carriedOver threeTimepoints) :=
    (hok _).2 ⟨rfl, by decide, rfl⟩
  have hinc : Increasing Timepoint.id threeTimepoints := by
    unfold Increasing
    decide
  refine ⟨⟨_, hthree, by decide, hback hinc _ hthree⟩, hnone (by decide), ?_, ?_⟩
  · exact hleast'.trans (congrArg Except.ok (hleast.trans (by decide)))
  · exact hlargest'.trans (congrArg Except.ok (hlargest.trans (by decide)))

end CapacityExpansion.Temporal
