import CapacityExpansion.Proofs.Temporal.Linkage

/-!
# Looking back from an index

A stage can be asked for the index before any index, also before one with which
no timepoint is carried over to it. It has an answer if and only if timepoints
are carried over with both indices.

The index before is formed in any case, also where it is not the answer. So if
anything is carried over at all, asking for the index before the least one
overflows, although there is nothing before it.

* `Stage.LeadsBack`: an index which is answered with another one;
* `linkedPredecessor_of_ne_nil`: the answer, if anything is carried over;
* `resolve_linkedPredecessor`: the answers of the stages of a hierarchy;
* `exists_linkedPredecessor_overflow`: a question without an answer.
-/

namespace CapacityExpansion.Temporal

open Tables

/-- Timepoints are carried over to a stage with an index and with the one before it. -/
structure Stage.LeadsBack (stage : Stage) (index before : Int32) : Prop where
  toInt_before : before.toInt = index.toInt - 1
  exists_index : ∃ l ∈ stage.linkedPredecessors, l.index = index
  exists_before : ∃ l ∈ stage.linkedPredecessors, l.index = before

variable {fragment p : Nat} {t : Tables} {H : Hierarchy} {stage : Stage} {index before : Int32}

/-! ## Indices carried over -/

namespace CountsDown

variable {l : List LinkedTimepoint}

/-- Every index from 0 down to the least one is there. -/
theorem exists_index_iff (h : CountsDown l) :
    (∃ m ∈ l, m.index = index) ↔ index.toInt ≤ 0 ∧ -(l.length : Int) < index.toInt := by
  have hmap : (∃ m ∈ l, m.index = index) ↔ index.toInt ∈ l.map (·.index.toInt) := by
    simp only [List.mem_map, Int32.toInt_inj]
  rw [hmap, h, List.mem_map]
  simp only [List.mem_range]
  constructor
  · rintro ⟨n, hn, e⟩
    omega
  · rintro ⟨hle, hlt⟩
    exact ⟨index.toInt.natAbs, by omega, by omega⟩

/-- The earliest timepoint has the least index. -/
theorem toInt_getLast? (h : CountsDown l) {earliest : LinkedTimepoint}
    (he : l.getLast? = some earliest) : earliest.index.toInt = 1 - (l.length : Int) := by
  have hpos := List.length_pos_of_mem (List.mem_of_getLast? he)
  have hlt : l.length - 1 < l.length := by omega
  rw [List.getLast?_eq_getElem?, List.getElem?_eq_getElem hlt, Option.some.injEq] at he
  rw [← he, h.toInt_getElem hlt]
  omega

end CountsDown

theorem Tables.ResolvesStage.countsDown_linkedTimepoints (h : t.ResolvesStage p stage) :
    CountsDown stage.linkedTimepoints := by
  have hindices := h.indices
  rw [indicesOf, ← h.timepoints] at hindices
  rw [h.linkedTimepoints]
  exact countsDown_carriedOver hindices

/-- What is carried over to a stage has the indices `0, -1, -2, …`, as it has where it comes
    from. -/
theorem Tables.Resolves.countsDown_linkedPredecessors (h : t.Resolves H)
    (hmem : (p, stage) ∈ H.stages) : CountsDown stage.linkedPredecessors := by
  by_cases hne : stage.linkedPredecessors = []
  · rw [hne]
    rfl
  · obtain ⟨q, source, -, hsource, e⟩ := h.exists_source hmem hne
    rw [e]
    exact (h.of_mem_stages (h.stage?_eq_some_iff.1 hsource).1).2.countsDown_linkedTimepoints

/-! ## Answers -/

theorem indexBefore_eq_error_iff :
    indexBefore index = .error .below ↔ index = Int32.minValue := by
  rw [indexBefore]
  split_ifs with h <;> simp [h]

theorem indexBefore_eq_ok_iff :
    indexBefore index = .ok before ↔ before.toInt = index.toInt - 1 := by
  by_cases hmin : index = Int32.minValue
  · have hlow := before.le_toInt
    have hbefore : before.toInt ≠ index.toInt - 1 := by
      rw [hmin, Int32.toInt_minValue]
      omega
    simp [indexBefore_eq_error_iff.2 hmin, hbefore]
  · obtain ⟨_, hbefore, hok⟩ := exists_indexBefore hmin
    rw [hok, Except.ok.injEq, ← hbefore, Int32.toInt_inj, eq_comm]

section CountsDown

variable (h : CountsDown stage.linkedPredecessors)
include h

/-- An index leads back if it comes after the earliest one. -/
theorem leadsBack_iff : stage.LeadsBack index before ↔ before.toInt = index.toInt - 1 ∧
    index.toInt ≤ 0 ∧ 1 - (stage.linkedPredecessors.length : Int) < index.toInt := by
  constructor
  · rintro ⟨hbefore, hindex, hmem⟩
    rw [h.exists_index_iff] at hindex hmem
    omega
  · rintro ⟨hbefore, hle, hlt⟩
    refine ⟨hbefore, h.exists_index_iff.2 ?_, h.exists_index_iff.2 ?_⟩ <;> omega

/-- If anything is carried over, the index before is formed. It is the answer if the index leads
    back to it. -/
theorem linkedPredecessor_of_ne_nil (hne : stage.linkedPredecessors ≠ []) :
    stage.linkedPredecessor index = (indexBefore index).map fun before =>
      if index.toInt ≤ 0 ∧ 1 - (stage.linkedPredecessors.length : Int) < index.toInt then
        some (.linked before) else none := by
  obtain ⟨earliest, he⟩ := Option.isSome_iff_exists.1 (List.getLast?_isSome.2 hne)
  rw [Stage.linkedPredecessor, he, ← h.toInt_getLast? he]
  simp only [Int32.lt_iff_toInt_lt, Int32.le_iff_toInt_le, Int32.toInt_zero, and_comm]
  cases indexBefore index <;> rfl

theorem linkedPredecessor_eq_error_iff : stage.linkedPredecessor index = .error .below ↔
    index = Int32.minValue ∧ stage.linkedPredecessors ≠ [] := by
  by_cases hne : stage.linkedPredecessors = []
  · simp [Stage.linkedPredecessor, hne]
  · rw [linkedPredecessor_of_ne_nil h hne, ← indexBefore_eq_error_iff]
    cases indexBefore index <;> simp [Except.map, hne]

theorem linkedPredecessor_eq_some_iff {a : Adjacent} :
    stage.linkedPredecessor index = .ok (some a) ↔
      ∃ before, stage.LeadsBack index before ∧ a = .linked before := by
  by_cases hne : stage.linkedPredecessors = []
  · have hnot : ∀ before, ¬stage.LeadsBack index before := by
      rintro before ⟨-, ⟨l, hl, -⟩, -⟩
      exact List.not_mem_nil (hne ▸ hl)
    simp [Stage.linkedPredecessor, hne, hnot]
  · rw [linkedPredecessor_of_ne_nil h hne]
    simp only [leadsBack_iff h, ← indexBefore_eq_ok_iff]
    cases indexBefore index with
    | error overflow => simp [Except.map]
    | ok before => simp [Except.map, and_assoc, eq_comm]

end CountsDown

/-! ## Hierarchies -/

/-- In a resolved hierarchy, looking back from the least index overflows as soon as anything is
    carried over to the stage. Otherwise there is an answer, which is the index before if timepoints
    are carried over with both indices, and nothing if they are not. -/
theorem resolve_linkedPredecessor (hok : (resolve fragment t).outcome = .ok H)
    (hmem : (p, stage) ∈ H.stages) (index : Int32) :
    (stage.linkedPredecessor index = .error .below ↔
      index = Int32.minValue ∧ stage.linkedPredecessors ≠ []) ∧
    (∀ a, stage.linkedPredecessor index = .ok (some a) ↔
      ∃ before, stage.LeadsBack index before ∧ a = .linked before) ∧
    (stage.linkedPredecessor index = .ok none ↔ (∀ before, ¬stage.LeadsBack index before) ∧
      (index = Int32.minValue → stage.linkedPredecessors = [])) := by
  have h := (resolves_of_ok hok).countsDown_linkedPredecessors hmem
  refine ⟨linkedPredecessor_eq_error_iff h, fun a => linkedPredecessor_eq_some_iff h, ?_⟩
  have hoverflow : (index = Int32.minValue → stage.linkedPredecessors = []) ↔
      stage.linkedPredecessor index ≠ .error .below := by
    rw [Ne, linkedPredecessor_eq_error_iff h, not_and, not_not]
  have hback : (∀ before, ¬stage.LeadsBack index before) ↔
      ∀ a, stage.linkedPredecessor index ≠ .ok (some a) := by
    simp only [Ne, linkedPredecessor_eq_some_iff h, not_exists, not_and]
    exact ⟨fun hnot a before hb => absurd hb (hnot before), fun hnot before hb =>
      hnot _ before hb rfl⟩
  rw [hoverflow, hback]
  rcases stage.linkedPredecessor index with ⟨⟨⟩⟩ | ⟨_ | a⟩ <;> simp

/-- The two days, the first of which carries over both of its timepoints. -/
def longNight : Tables :=
  { twoDays with timepoints := twoDays.timepoints.map fun row =>
      if row.timepoint.linkedIndex = none ∧ row.subproblem = 1 then
        { row with timepoint := { row.timepoint with linkedIndex := some (-1) } }
      else row }

/-- The second day, with what is carried over to it. -/
theorem exists_resolve_longNight : ∃ H, (resolve 1 longNight).outcome = .ok H ∧
    ∃ stage, (2, stage) ∈ H.stages ∧ stage.linkedPredecessors.map (·.index) = [0, -1] := by
  have hgiven : ((resolve 1 longNight).outcome.toOption.any fun H => H.stages.any fun entry =>
      entry.1 = 2 ∧ entry.2.linkedPredecessors.map (·.index) = [0, -1]) := by decide
  cases hok : (resolve 1 longNight).outcome with
  | error fault => rw [hok] at hgiven; cases hgiven
  | ok H =>
    rw [hok] at hgiven
    obtain ⟨⟨_, stage⟩, hmem, hentry⟩ := List.any_eq_true.1 hgiven
    obtain ⟨rfl, hindices⟩ := of_decide_eq_true hentry
    exact ⟨H, rfl, stage, hmem, hindices⟩

/-- From index 0 the second day leads back to index -1, and from there to nothing. -/
theorem resolve_linkedPredecessor_longNight : ∃ H stage, (resolve 1 longNight).outcome = .ok H ∧
    (2, stage) ∈ H.stages ∧ stage.linkedPredecessor 0 = .ok (some (.linked (-1))) ∧
      stage.linkedPredecessor (-1) = .ok none := by
  obtain ⟨H, hok, stage, hmem, hindices⟩ := exists_resolve_longNight
  have hcarried : ∀ i : Int32, (∃ l ∈ stage.linkedPredecessors, l.index = i) ↔ i = 0 ∨ i = -1 := by
    intro i
    rw [← List.mem_map, hindices]
    simp
  obtain ⟨-, hsome, -⟩ := resolve_linkedPredecessor hok hmem 0
  obtain ⟨-, -, hnone⟩ := resolve_linkedPredecessor hok hmem (-1)
  refine ⟨H, stage, hok, hmem, (hsome _).2 ⟨-1, ⟨by decide, ?_, ?_⟩, rfl⟩,
    hnone.2 ⟨fun before hback => ?_, fun hmin => absurd hmin (by decide)⟩⟩
  · exact (hcarried 0).2 (.inl rfl)
  · exact (hcarried (-1)).2 (.inr rfl)
  · obtain ⟨hbefore, -, hmem⟩ := hback
    rcases (hcarried before).1 hmem with rfl | rfl <;> exact absurd hbefore (by decide)

/-- Nothing comes before the least index, but the second day has no answer. -/
theorem exists_linkedPredecessor_overflow : ∃ H stage, (resolve 1 longNight).outcome = .ok H ∧
    (2, stage) ∈ H.stages ∧ stage.linkedPredecessor Int32.minValue = .error .below := by
  obtain ⟨H, hok, stage, hmem, hindices⟩ := exists_resolve_longNight
  have hne : stage.linkedPredecessors ≠ [] := by
    rintro e
    rw [e] at hindices
    cases hindices
  have h := (resolves_of_ok hok).countsDown_linkedPredecessors hmem
  exact ⟨H, stage, hok, hmem, (linkedPredecessor_eq_error_iff h).2 ⟨rfl, hne⟩⟩

end CapacityExpansion.Temporal
