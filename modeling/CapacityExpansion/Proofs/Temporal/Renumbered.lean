import CapacityExpansion.Proofs.Temporal.Acceptance
import CapacityExpansion.Proofs.Temporal.Renumbering
import Mathlib

/-!
# Numbers of timepoints

Only the order of the numbers in the tables matters, and whether they are 0. So
far all numbers, also those which are not in the tables, had to stay in order.
That is no restriction, for two reasons.

* Resolving returns no other timepoints than those in the tables, or it would
  return them with any new numbers (`renumber_resolve_congr`).
* Where the gaps between numbers get smaller, no order of all numbers is kept.
  But from the old numbers and from the new ones alike one can go to the sums of
  both, and gaps only get larger then (`strictMono_summed`).

The main result is `resolve_renumber`.
-/

namespace CapacityExpansion.Temporal

/-! ## Numbers which stay, and numbers given twice -/

section Laws

variable {f : Nat → Nat} (g : Nat → Nat)

section Same

variable (h : ∀ n, f n = n)
include h

theorem Timepoint.renumber_eq_self (tp : Timepoint) : tp.renumber f = tp := by
  rw [renumber, h]

theorem Adjacent.renumber_eq_self (a : Adjacent) : a.renumber f = a := by
  cases a with
  | timepoint id => rw [renumber, h]
  | linked index => rfl

theorem Horizon.renumber_eq_self (hz : Horizon) : hz.renumber f = hz := by
  rw [renumber, List.map_id'' h]

theorem Link.renumber_eq_self (link : Link) : link.renumber f = link := by
  have hadjacent : Adjacent.renumber f = id := funext (Adjacent.renumber_eq_self h)
  rw [renumber, h, hadjacent, Option.map_id_fun]
  rfl

theorem Timeline.renumber_eq_self (tl : Timeline) : tl.renumber f = tl := by
  rw [renumber, List.map_id'' (Horizon.renumber_eq_self h), List.map_id'' (Link.renumber_eq_self h)]

theorem LinkedTimepoint.renumber_eq_self (l : LinkedTimepoint) : l.renumber f = l := by
  rw [renumber, l.timepoint.renumber_eq_self h]

theorem Stage.renumber_eq_self (stage : Stage) : stage.renumber f = stage := by
  have hlinked := LinkedTimepoint.renumber_eq_self h
  rw [renumber, List.map_id'' (Timepoint.renumber_eq_self h),
    List.map_id'' (Timeline.renumber_eq_self h), List.map_id'' hlinked, List.map_id'' hlinked]

theorem Subproblem.renumber_eq_self (sub : Subproblem) : sub.renumber f = sub := by
  rw [renumber, List.map_id'' (Stage.renumber_eq_self h)]

theorem Hierarchy.renumber_eq_self (H : Hierarchy) : H.renumber f = H := by
  rw [renumber, List.map_id'' (Subproblem.renumber_eq_self h)]

theorem Fault.renumber_eq_self (fault : Fault) : fault.renumber f = fault := by
  obtain ⟨place, defect⟩ := fault
  cases defect <;> simp only [renumber, Defect.renumber, h]

/-- Numbers which stay the same change nothing. -/
theorem Resolution.renumber_eq_self (r : Resolution) : r.renumber f = r := by
  obtain ⟨fault | H, demotions⟩ := r
  · rw [renumber, Except.map, Except.mapError, fault.renumber_eq_self h]
  · rw [renumber, Except.map, Except.mapError, H.renumber_eq_self h]

end Same

theorem Timepoint.renumber_comp :
    Timepoint.renumber g ∘ Timepoint.renumber f = Timepoint.renumber (g ∘ f) := rfl

theorem Adjacent.renumber_comp :
    Adjacent.renumber g ∘ Adjacent.renumber f = Adjacent.renumber (g ∘ f) := by
  funext a
  cases a <;> rfl

theorem Horizon.renumber_comp :
    Horizon.renumber g ∘ Horizon.renumber f = Horizon.renumber (g ∘ f) := by
  funext hz
  simp only [Function.comp_apply, renumber, List.map_map]

theorem Link.renumber_comp : Link.renumber g ∘ Link.renumber f = Link.renumber (g ∘ f) := by
  funext link
  simp only [Function.comp_apply, renumber, Option.map_map, Adjacent.renumber_comp]

theorem Timeline.renumber_comp :
    Timeline.renumber g ∘ Timeline.renumber f = Timeline.renumber (g ∘ f) := by
  funext tl
  simp only [Function.comp_apply, renumber, List.map_map, Horizon.renumber_comp,
    Link.renumber_comp]

theorem LinkedTimepoint.renumber_comp :
    LinkedTimepoint.renumber g ∘ LinkedTimepoint.renumber f = LinkedTimepoint.renumber (g ∘ f) :=
  rfl

theorem Stage.renumber_comp : Stage.renumber g ∘ Stage.renumber f = Stage.renumber (g ∘ f) := by
  funext stage
  simp only [Function.comp_apply, renumber, List.map_map, Timepoint.renumber_comp,
    Timeline.renumber_comp, LinkedTimepoint.renumber_comp]

theorem Subproblem.renumber_comp :
    Subproblem.renumber g ∘ Subproblem.renumber f = Subproblem.renumber (g ∘ f) := by
  funext sub
  simp only [Function.comp_apply, renumber, List.map_map, Stage.renumber_comp]

theorem Hierarchy.renumber_renumber (H : Hierarchy) :
    (H.renumber f).renumber g = H.renumber (g ∘ f) := by
  simp only [renumber, List.map_map, Subproblem.renumber_comp]

theorem Fault.renumber_renumber (fault : Fault) :
    (fault.renumber f).renumber g = fault.renumber (g ∘ f) := by
  obtain ⟨place, defect⟩ := fault
  cases defect <;> rfl

/-- Numbers given twice are given once by both. -/
theorem Resolution.renumber_renumber (r : Resolution) :
    (r.renumber f).renumber g = r.renumber (g ∘ f) := by
  obtain ⟨fault | H, demotions⟩ := r
  · simp only [renumber, Except.map, Except.mapError, Fault.renumber_renumber]
  · simp only [renumber, Except.map, Except.mapError, Hierarchy.renumber_renumber]

end Laws

/-! ## Numbers in the tables -/

namespace Tables

variable (t : Tables)

/-- The numbers of timepoints in the tables. -/
def numbers : List Nat :=
  t.timepoints.map (·.timepoint.id) ++ t.members.map MemberRow.timepoint ++
    t.spans.flatMap fun row => [row.first, row.last]

variable {t} {f g : Nat → Nat}

theorem forall_mem_numbers_iff {P : Nat → Prop} : (∀ a ∈ t.numbers, P a) ↔
    (∀ row ∈ t.timepoints, P row.timepoint.id) ∧ (∀ row ∈ t.members, P row.timepoint) ∧
      ∀ row ∈ t.spans, P row.first ∧ P row.last := by
  simp only [numbers, List.forall_mem_append, List.forall_mem_map, List.forall_mem_flatMap,
    List.forall_mem_cons, List.not_mem_nil, false_imp_iff, implies_true, and_true, and_assoc]

theorem renumber_congr (h : ∀ a ∈ t.numbers, f a = g a) : t.renumber f = t.renumber g := by
  obtain ⟨htimepoints, hmembers, hspans⟩ := forall_mem_numbers_iff.1 h
  unfold renumber
  congr 1
  · refine List.map_congr_left fun row hrow => ?_
    rw [TimepointRow.renumber, Timepoint.renumber, htimepoints row hrow]
    rfl
  · refine List.map_congr_left fun row hrow => ?_
    rw [MemberRow.renumber, hmembers row hrow]
    rfl
  · refine List.map_congr_left fun row hrow => ?_
    rw [SpanRow.renumber, (hspans row hrow).1, (hspans row hrow).2]
    rfl

theorem renumber_renumber : (t.renumber f).renumber g = t.renumber (g ∘ f) := by
  simp only [renumber, List.map_map]
  rfl

/-- The order of the numbers in the tables is kept, and so is whether they are 0. -/
structure KeepsOrder (t : Tables) (f : Nat → Nat) : Prop where
  lt : ∀ a ∈ t.numbers, ∀ b ∈ t.numbers, a < b → f a < f b
  zero_iff : ∀ a ∈ t.numbers, f a = 0 ↔ a = 0

theorem KeepsOrder.le_iff (h : t.KeepsOrder f) {a b : Nat} (ha : a ∈ t.numbers)
    (hb : b ∈ t.numbers) : f a ≤ f b ↔ a ≤ b := by
  constructor
  · intro hle
    exact Nat.not_lt.1 fun hlt => Nat.not_lt.2 hle (h.lt b hb a ha hlt)
  · intro hle
    rcases Nat.lt_or_eq_of_le hle with hlt | rfl
    · exact Nat.le_of_lt (h.lt a ha b hb hlt)
    · exact Nat.le_refl _

end Tables

variable {t : Tables} {f g g' : Nat → Nat}

/-! ## Other timepoints do not matter -/

/-- Twice a number, or one more if it is not among some numbers. -/
def marked (numbers : List Nat) (n : Nat) : Nat := if n ∈ numbers then 2 * n else 2 * n + 1

theorem strictMono_marked (numbers : List Nat) : StrictMono (marked numbers) := by
  intro m n hlt
  unfold marked
  split <;> split <;> omega

/-- The number under `g` which was doubled, or the one under `g'` to whose double 1 was added. -/
def unmarked (g g' : Nat → Nat) (n : Nat) : Nat := if n % 2 = 0 then g (n / 2) else g' (n / 2)

theorem unmarked_double (g g' : Nat → Nat) (n : Nat) : unmarked g g' (2 * n) = g n := by
  rw [unmarked, if_pos (Nat.mul_mod_right 2 n), Nat.mul_div_cancel_left n Nat.two_pos]

theorem unmarked_marked {numbers : List Nat} (h : ∀ a ∈ numbers, g a = g' a) (n : Nat) :
    unmarked g g' (marked numbers n) = g' n := by
  rw [marked]
  split
  · next hn => rw [unmarked_double, h n hn]
  · have hodd : (2 * n + 1) / 2 = n := by omega
    rw [unmarked, if_neg (by omega), hodd]

/-- Resolving returns timepoints of the tables only. With numbers which are doubled throughout it
    does the same as with numbers which are doubled in the tables and odd elsewhere, so it returns
    no odd ones. -/
theorem renumber_resolve_congr (fragment : Nat) (h : ∀ a ∈ t.numbers, g a = g' a) :
    (resolve fragment t).renumber g = (resolve fragment t).renumber g' := by
  have hdouble : StrictMono fun n => 2 * n := fun m n hlt => by
    dsimp only
    omega
  have hmarked : ∀ a ∈ t.numbers, 2 * a = marked t.numbers a := fun a ha => (if_pos ha).symm
  have hzero : ∀ row ∈ t.timepoints, 2 * row.timepoint.id = 0 ↔ row.timepoint.id = 0 :=
    fun row _ => by omega
  have hsame : (resolve fragment t).renumber (fun n => 2 * n) =
      (resolve fragment t).renumber (marked t.numbers) := by
    rw [← resolve_renumber_of_strictMono hdouble hzero, Tables.renumber_congr hmarked,
      resolve_renumber_of_strictMono (strictMono_marked _)]
    intro row hrow
    rw [← hmarked _ ((Tables.forall_mem_numbers_iff.1 fun _ ha => ha).1 row hrow)]
    exact hzero row hrow
  have hg : unmarked g g' ∘ (fun n => 2 * n) = g := funext (unmarked_double g g')
  have hg' : unmarked g g' ∘ marked t.numbers = g' := funext (unmarked_marked h)
  rw [← hg, ← Resolution.renumber_renumber, hsame, Resolution.renumber_renumber, hg']

/-! ## Sums of the old and the new numbers -/

/-- A number plus the largest `v b` for the `b` among some numbers whose `u b` is not above it. -/
def summed (u v : Nat → Nat) (numbers : List Nat) (n : Nat) : Nat :=
  n + (numbers.toFinset.filter (u · ≤ n)).sup v

theorem strictMono_summed (u v : Nat → Nat) (numbers : List Nat) :
    StrictMono (summed u v numbers) := by
  intro m n hlt
  refine Nat.add_lt_add_of_lt_of_le hlt (Finset.sup_mono fun b hb => ?_)
  rw [Finset.mem_filter] at hb ⊢
  exact ⟨hb.1, Nat.le_trans hb.2 (Nat.le_of_lt hlt)⟩

theorem summed_eq {u v : Nat → Nat} {numbers : List Nat} {a : Nat} (ha : a ∈ numbers)
    (hv : ∀ b ∈ numbers, u b ≤ u a → v b ≤ v a) : summed u v numbers (u a) = u a + v a := by
  refine congrArg (u a + ·) (Nat.le_antisymm (Finset.sup_le fun b hb => ?_) (Finset.le_sup ?_))
  · rw [Finset.mem_filter, List.mem_toFinset] at hb
    exact hv b hb.1 hb.2
  · exact Finset.mem_filter.2 ⟨List.mem_toFinset.2 ha, Nat.le_refl _⟩

theorem Tables.KeepsOrder.summed_id_eq (h : t.KeepsOrder f) {a : Nat} (ha : a ∈ t.numbers) :
    summed id f t.numbers a = a + f a :=
  summed_eq (u := id) ha fun _ hb hle => (h.le_iff hb ha).2 hle

/-- A timepoint of the tables has the same sum from its old number and from its new one. -/
theorem Tables.KeepsOrder.summed_eq_summed (h : t.KeepsOrder f) {a : Nat} (ha : a ∈ t.numbers) :
    summed id f t.numbers a = summed f id t.numbers (f a) := by
  have hnew : summed f id t.numbers (f a) = f a + a :=
    summed_eq ha fun b hb hle => (h.le_iff hb ha).1 hle
  rw [h.summed_id_eq ha, hnew, Nat.add_comm]

/-! ## Resolving -/

theorem Tables.KeepsOrder.resolve_renumber_eq (h : t.KeepsOrder f) (fragment : Nat) :
    resolve fragment (t.renumber f) = (resolve fragment t).renumber f := by
  have hrow : ∀ row ∈ t.timepoints, row.timepoint.id ∈ t.numbers :=
    (forall_mem_numbers_iff.1 fun _ ha => ha).1
  have hsum : ∀ a ∈ t.numbers, summed id f t.numbers a = 0 ↔ a = 0 := by
    intro a ha
    have hzero := h.zero_iff a ha
    rw [h.summed_id_eq ha]
    omega
  have hold := resolve_renumber_of_strictMono (strictMono_summed id f t.numbers)
    (fun row hr => hsum _ (hrow row hr)) fragment
  have hnew : resolve fragment ((t.renumber f).renumber (summed f id t.numbers)) =
      (resolve fragment (t.renumber f)).renumber (summed f id t.numbers) := by
    refine resolve_renumber_of_strictMono (strictMono_summed f id t.numbers)
      (List.forall_mem_map.2 fun row hr => ?_) fragment
    change summed f id t.numbers (f row.timepoint.id) = 0 ↔ f row.timepoint.id = 0
    rw [← h.summed_eq_summed (hrow row hr), hsum _ (hrow row hr), h.zero_iff _ (hrow row hr)]
  have hsums : (t.renumber f).renumber (summed f id t.numbers) =
      t.renumber (summed id f t.numbers) := by
    rw [renumber_renumber]
    exact renumber_congr fun a ha => (h.summed_eq_summed ha).symm
  -- The sums are numbers for both tables, so the new numbers can be read off them.
  obtain ⟨d, hd⟩ := (strictMono_summed f id t.numbers).injective.hasLeftInverse
  calc resolve fragment (t.renumber f)
      = (resolve fragment (t.renumber f)).renumber (d ∘ summed f id t.numbers) :=
        (Resolution.renumber_eq_self hd _).symm
    _ = ((resolve fragment (t.renumber f)).renumber (summed f id t.numbers)).renumber d :=
        (Resolution.renumber_renumber d _).symm
    _ = ((resolve fragment t).renumber (summed id f t.numbers)).renumber d := by
        rw [← hnew, hsums, hold]
    _ = (resolve fragment t).renumber (d ∘ summed id f t.numbers) :=
        Resolution.renumber_renumber d _
    _ = (resolve fragment t).renumber f :=
        renumber_resolve_congr fragment fun a ha => by
          rw [Function.comp_apply, h.summed_eq_summed ha, hd]

/-- New numbers neither make a horizon contiguous nor not contiguous. -/
theorem Resolution.renumber_nonContiguousHorizon_iff (r : Resolution) (place : Location) :
    (r.renumber f).outcome = .error ⟨place, .nonContiguousHorizon⟩ ↔
      r.outcome = .error ⟨place, .nonContiguousHorizon⟩ := by
  obtain ⟨⟨place', defect⟩ | H, demotions⟩ := r
  · cases defect <;> simp [renumber, Except.map, Except.mapError, Fault.renumber, Defect.renumber]
  · exact iff_of_false nofun nofun

/-- If the order of the numbers in the tables is kept, resolving does the same with new numbers.
    In particular, a horizon is found not to be contiguous at the same places. -/
theorem resolve_renumber (h : t.KeepsOrder f) (fragment : Nat) :
    resolve fragment (t.renumber f) = (resolve fragment t).renumber f ∧
      ∀ place, (resolve fragment (t.renumber f)).outcome = .error ⟨place, .nonContiguousHorizon⟩ ↔
        (resolve fragment t).outcome = .error ⟨place, .nonContiguousHorizon⟩ := by
  have heq := h.resolve_renumber_eq fragment
  exact ⟨heq, fun place => by rw [heq, Resolution.renumber_nonContiguousHorizon_iff]⟩

/-- New numbers for the timepoints 1 and 2, far from each other. -/
def spread (n : Nat) : Nat := if n = 1 then 10 else 4000000000

/-- The two days are resolved with these numbers as well. -/
theorem resolve_renumber_twoDays : twoDays.KeepsOrder spread ∧
    (resolve 1 (twoDays.renumber spread)).outcome.toOption.map (fun H => H.stages.map fun stage =>
        stage.2.timelines.flatMap fun tl => tl.horizons.map Horizon.timepoints) =
      some [[[10, 4000000000], [10, 4000000000]],
        [[10, 4000000000], [10], [4000000000]]] ∧
    resolve 1 (twoDays.renumber spread) = (resolve 1 twoDays).renumber spread := by
  have hkeeps : twoDays.KeepsOrder spread := ⟨by decide, by decide⟩
  exact ⟨hkeeps, by decide, (resolve_renumber hkeeps 1).1⟩

end CapacityExpansion.Temporal
