import CapacityExpansion.Proofs.Data.Increasing
import CapacityExpansion.Proofs.Temporal.WellFormed
import CapacityExpansion.Temporal.Carryover

/-!
# Timepoints carried over

The rules for the indices of the timepoints carried over from a stage together
say that the indices count up to 0. Listed backwards, the timepoints carried over
have the indices `0, -1, -2, …`.

* `brokenRule?_eq_none_iff`: indices which break no rule count to zero;
* `checkedCarriedOver_ok_iff`: when the timepoints of a stage pass;
* `mem_carriedOver_iff`, `countsDown_carriedOver_iff`: what is carried over.
-/

namespace CapacityExpansion.Temporal

theorem neighbours_iff {α : Type} {r : α → α → Bool} {l : List α} :
    neighbours r l ↔ l.IsChain fun a b => r a b := by
  induction l with
  | nil => simp [neighbours]
  | cons a l ih =>
    cases l with
    | nil => simp [neighbours]
    | cons b l => rw [neighbours, Bool.and_eq_true, ih, List.isChain_cons_cons]

/-! ## Indices -/

variable {i j : Int32} {indices : List Int32}

theorem countsToZero_nil : CountsToZero [] := rfl

/-- The first of the indices counts those after it. -/
theorem countsToZero_cons :
    CountsToZero (i :: indices) ↔ i.toInt = -indices.length ∧ CountsToZero indices := by
  unfold CountsToZero
  rw [List.length_cons, List.range_succ_eq_map, List.map_cons, List.map_cons, List.cons.injEq,
    List.map_map]
  refine and_congr (by push_cast; omega) (Eq.congr_right (List.map_congr_left fun k _ => ?_))
  simp only [Function.comp]
  push_cast
  omega

/-- An index whose successor is larger is one less than it. -/
theorem toInt_succ_of_lt (h : i < j) : i + 1 = j ↔ i.toInt + 1 = j.toInt := by
  rw [Int32.lt_iff_toInt_lt] at h
  have hj := j.toInt_lt
  have hi := i.le_toInt
  rw [← Int32.toInt_inj, Int32.toInt_add, Int32.toInt_one, Int.bmod_eq_of_le (by omega) (by omega)]

theorem neighbours_lt_iff :
    neighbours (fun i j => decide (i < j)) indices ↔ indices.IsChain fun i j => i < j := by
  simp only [neighbours_iff, decide_eq_true_eq]

theorem neighbours_succ_iff :
    neighbours (fun i j => i + 1 == j) indices ↔ indices.IsChain fun i j => i + 1 = j := by
  simp only [neighbours_iff, beq_iff_eq]

/-- What the rules say. -/
theorem brokenRule?_eq_none_iff_rules : brokenRule? indices = none ↔ (∀ i ∈ indices, ¬0 < i) ∧
    indices.IsChain (· < ·) ∧ indices.IsChain (fun i j => i + 1 = j) ∧
    indices.getLast? = some 0 := by
  have hpos : indices.any (0 < ·) = false ↔ ∀ i ∈ indices, ¬0 < i := by
    simp only [List.any_eq_false, decide_eq_true_eq]
  rw [← hpos, ← neighbours_lt_iff, ← neighbours_succ_iff]
  unfold brokenRule?
  split_ifs <;> simp_all

/-- A single index breaks no rule if and only if it is 0. -/
theorem brokenRule?_singleton : brokenRule? [i] = none ↔ CountsToZero [i] := by
  have hzero : ([i].getLast? = some 0) ↔ i.toInt = 0 := by
    rw [List.getLast?_singleton, Option.some.injEq, ← Int32.toInt_inj, Int32.toInt_zero]
  have hpos : (∀ j ∈ [i], ¬0 < j) ↔ i.toInt ≤ 0 := by
    rw [List.forall_mem_singleton, Int32.lt_iff_toInt_lt, Int32.toInt_zero, Int.not_lt]
  rw [brokenRule?_eq_none_iff_rules, countsToZero_cons, hzero, hpos, List.length_nil]
  constructor
  · rintro ⟨-, -, -, hi⟩
    exact ⟨by omega, countsToZero_nil⟩
  · rintro ⟨hi, -⟩
    exact ⟨by omega, .singleton i, .singleton i, by omega⟩

/-- Indices which break no rule count to zero. -/
theorem brokenRule?_eq_none_iff (hne : indices ≠ []) :
    brokenRule? indices = none ↔ CountsToZero indices := by
  induction indices with
  | nil => exact absurd rfl hne
  | cons i indices ih =>
    cases indices with
    | nil => exact brokenRule?_singleton
    | cons j indices =>
      specialize ih (List.cons_ne_nil _ _)
      rw [brokenRule?_eq_none_iff_rules] at ih ⊢
      rw [countsToZero_cons, ← ih, List.isChain_cons_cons, List.isChain_cons_cons,
        List.forall_mem_cons, List.getLast?_cons_cons]
      constructor
      · rintro ⟨⟨-, hpos⟩, ⟨hlt, hlts⟩, ⟨hsucc, hsuccs⟩, hlast⟩
        have hrest := ih.1 ⟨hpos, hlts, hsuccs, hlast⟩
        rw [toInt_succ_of_lt hlt] at hsucc
        rw [countsToZero_cons] at hrest
        refine ⟨?_, hpos, hlts, hsuccs, hlast⟩
        rw [List.length_cons]
        push_cast
        omega
      · rintro ⟨hi, hrules⟩
        -- The next index is negative or 0, so the first one is too.
        obtain ⟨hj, -⟩ := countsToZero_cons.1 (ih.1 hrules)
        obtain ⟨hpos, hlts, hsuccs, hlast⟩ := hrules
        rw [List.length_cons] at hi
        push_cast at hi
        have hlt : i < j := Int32.lt_iff_toInt_lt.2 (by omega)
        refine ⟨⟨fun h => ?_, hpos⟩, ⟨hlt, hlts⟩,
          ⟨(toInt_succ_of_lt hlt).2 (by omega), hsuccs⟩, hlast⟩
        rw [Int32.lt_iff_toInt_lt, Int32.toInt_zero] at h
        omega

/-- Indices count to zero if, taken backwards, they are `0, -1, -2, …`. -/
theorem countsToZero_iff_reverse : CountsToZero indices ↔ indices.reverse.map Int32.toInt =
    (List.range indices.length).map fun k : Nat => -(k : Int) := by
  induction indices with
  | nil => exact iff_of_true countsToZero_nil rfl
  | cons i indices ih =>
    rw [countsToZero_cons, ih, List.reverse_cons, List.map_append, List.length_cons,
      List.range_succ, List.map_append, List.map_singleton, List.map_singleton]
    constructor
    · rintro ⟨hi, hrest⟩
      rw [hrest, hi]
    · intro h
      obtain ⟨hrest, hi⟩ := List.append_inj' h rfl
      exact ⟨List.singleton_inj.1 hi, hrest⟩

/-! ## Timepoints -/

variable {tps : List Timepoint} {place : Location}

/-- The timepoints carried over are those with an index. -/
theorem mem_carriedOver_iff {l : LinkedTimepoint} :
    l ∈ carriedOver tps ↔ l.timepoint ∈ tps ∧ l.timepoint.linkedIndex = some l.index := by
  obtain ⟨i, tp⟩ := l
  simp only [carriedOver, List.mem_reverse, List.mem_filterMap, Option.map_eq_some_iff,
    LinkedTimepoint.mk.injEq]
  constructor
  · rintro ⟨_, hmem, _, hi, rfl, rfl⟩
    exact ⟨hmem, hi⟩
  · rintro ⟨hmem, hi⟩
    exact ⟨tp, hmem, i, hi, rfl, rfl⟩

theorem map_index_carriedOver :
    (carriedOver tps).map LinkedTimepoint.index =
      (tps.filterMap Timepoint.linkedIndex).reverse := by
  rw [carriedOver, List.map_reverse, List.map_filterMap]
  congr 2
  funext tp
  cases tp.linkedIndex <;> rfl

theorem carriedOver_eq_nil_iff :
    carriedOver tps = [] ↔ tps.filterMap Timepoint.linkedIndex = [] := by
  rw [← List.map_eq_nil_iff (f := LinkedTimepoint.index), map_index_carriedOver,
    List.reverse_eq_nil_iff]

/-- The timepoints carried over go back in time. -/
theorem pairwise_carriedOver (h : Increasing Timepoint.id tps) :
    (carriedOver tps).Pairwise fun l m => m.timepoint.id < l.timepoint.id := by
  rw [carriedOver, List.pairwise_reverse]
  refine List.Pairwise.filterMap _ (fun tp tp' hlt l hl m hm => ?_) h
  obtain ⟨_, -, rfl⟩ := Option.map_eq_some_iff.1 hl
  obtain ⟨_, -, rfl⟩ := Option.map_eq_some_iff.1 hm
  exact hlt

/-- Timepoints carried over have the indices `0, -1, -2, …`. -/
def CountsDown (l : List LinkedTimepoint) : Prop :=
  l.map (·.index.toInt) = (List.range l.length).map fun n : Nat => -(n : Int)

/-- The timepoints carried over have the indices `0, -1, -2, …` exactly if their indices count to
    zero. -/
theorem countsDown_carriedOver_iff :
    CountsDown (carriedOver tps) ↔ CountsToZero (tps.filterMap Timepoint.linkedIndex) := by
  have hlength : (carriedOver tps).length = (tps.filterMap Timepoint.linkedIndex).length := by
    rw [← List.length_map LinkedTimepoint.index, map_index_carriedOver, List.length_reverse]
  rw [countsToZero_iff_reverse, ← map_index_carriedOver, List.map_map, ← hlength]
  rfl

theorem countsDown_carriedOver (h : CountsToZero (tps.filterMap Timepoint.linkedIndex)) :
    CountsDown (carriedOver tps) :=
  countsDown_carriedOver_iff.2 h

namespace CountsDown

variable {l : List LinkedTimepoint} {n : Nat}

theorem toInt_getElem (h : CountsDown l) (hn : n < l.length) : l[n].index.toInt = -(n : Int) := by
  have hget := congrArg (·[n]?) h
  simp only [List.getElem?_map, List.getElem?_eq_getElem hn, List.getElem?_range hn,
    Option.map_some, Option.some.injEq] at hget
  exact hget

/-- No more timepoints are carried over than there are indices. -/
theorem length_le (h : CountsDown l) : l.length ≤ 2147483649 := by
  refine Nat.not_lt.1 fun hgt => ?_
  have hlast := h.toInt_getElem hgt
  have hlow := l[2147483649].index.le_toInt
  omega

end CountsDown

/-- Timepoints are carried over if and only if their indices count to zero. -/
theorem checkedCarriedOver_ok_iff {l : List LinkedTimepoint} :
    checkedCarriedOver place tps = .ok l ↔
      CountsToZero (tps.filterMap Timepoint.linkedIndex) ∧ l = carriedOver tps := by
  unfold checkedCarriedOver
  cases e : tps.filterMap Timepoint.linkedIndex with
  | nil => simp [countsToZero_nil, eq_comm]
  | cons i indices =>
    rw [← brokenRule?_eq_none_iff (List.cons_ne_nil _ _)]
    cases hrule : brokenRule? (i :: indices) with
    | none => simp [hrule, eq_comm (a := l)]
    | some rule => simp [hrule]

end CapacityExpansion.Temporal
