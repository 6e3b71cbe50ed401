/-!
# Sorting by a key

Stable insertion sort. Identifiers are sorted by number and names by text; the
recursion is on the list itself, so that a sorted table can be evaluated in a
proof as well as at run time, and a list which is already in order is sorted in
linear time.

* `sortBy_perm`: sorting only rearranges;
* `pairwise_sortBy`: the result is in order, for a total and transitive test.
-/

namespace CapacityExpansion

variable {α : Type}

/-- The list with `a` before the first element it may precede. -/
def insertBy (le : α → α → Bool) (a : α) : List α → List α
  | [] => [a]
  | b :: l => if le a b then a :: b :: l else b :: insertBy le a l

/-- The list in the order of `le`, elements which may precede each other keeping their order. -/
def sortBy (le : α → α → Bool) : List α → List α
  | [] => []
  | a :: l => insertBy le a (sortBy le l)

/-- The list in the order of a number of each element. -/
def sortOn (key : α → Nat) : List α → List α := sortBy fun a b => key a ≤ key b

/-- The texts in the order of their characters. -/
def sortTexts : List String → List String := sortBy fun a b => decide (a < b) || a == b

theorem insertBy_perm (le : α → α → Bool) (a : α) (l : List α) : (insertBy le a l).Perm (a :: l) := by
  induction l with
  | nil => exact .refl _
  | cons b l ih =>
    simp only [insertBy]
    split
    · exact .refl _
    · exact (ih.cons b).trans (.swap a b l)

/-- Sorting only rearranges. -/
theorem sortBy_perm (le : α → α → Bool) (l : List α) : (sortBy le l).Perm l := by
  induction l with
  | nil => exact .refl _
  | cons a l ih => exact (insertBy_perm le a _).trans (ih.cons a)

theorem pairwise_insertBy {le : α → α → Bool} (total : ∀ a b, le a b ∨ le b a)
    (trans : ∀ a b c, le a b → le b c → le a c) (a : α) {l : List α}
    (h : l.Pairwise fun x y => le x y) : (insertBy le a l).Pairwise fun x y => le x y := by
  induction l with
  | nil => simp [insertBy]
  | cons b l ih =>
    rw [List.pairwise_cons] at h
    simp only [insertBy]
    split
    · next hab =>
      rw [List.pairwise_cons, List.pairwise_cons]
      refine ⟨fun c hc => ?_, h⟩
      rcases List.mem_cons.1 hc with rfl | hc
      · exact hab
      · exact trans _ _ _ hab (h.1 c hc)
    · next hab =>
      rw [List.pairwise_cons]
      refine ⟨fun c hc => ?_, ih h.2⟩
      rcases List.mem_cons.1 ((insertBy_perm le a l).mem_iff.1 hc) with rfl | hc
      · exact (total _ _).resolve_left hab
      · exact h.1 c hc

/-- Sorting puts a list in order. -/
theorem pairwise_sortBy {le : α → α → Bool} (total : ∀ a b, le a b ∨ le b a)
    (trans : ∀ a b c, le a b → le b c → le a c) (l : List α) :
    (sortBy le l).Pairwise fun x y => le x y := by
  induction l with
  | nil => exact .nil
  | cons a l ih => exact pairwise_insertBy total trans a ih

end CapacityExpansion
