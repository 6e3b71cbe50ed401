/-!
# Insertion-ordered sets

A list without repetitions. Inserting an element which is already there changes
nothing; a new one goes to the end. The members of a fragment, the zones of a
project and the rows of a patched file are such sets.
-/

namespace CapacityExpansion

variable {α : Type}

/-- A set of `α`, ordered by first insertion. -/
structure OrderedSet (α : Type) where
  /-- The elements, in order of first insertion. -/
  elements : List α
  /-- No element occurs twice. -/
  nodup : elements.Nodup

namespace OrderedSet

instance [DecidableEq α] : DecidableEq (OrderedSet α) := fun a b =>
  match a, b with
  | ⟨x, _⟩, ⟨y, _⟩ =>
    if h : x = y then isTrue (by subst h; rfl) else isFalse fun e => h (by injection e)

/-- The set without elements. -/
def empty : OrderedSet α := ⟨[], List.nodup_nil⟩

instance : EmptyCollection (OrderedSet α) := ⟨empty⟩

instance : Inhabited (OrderedSet α) := ⟨empty⟩

@[ext] theorem ext {s t : OrderedSet α} (h : s.elements = t.elements) : s = t := by
  cases s; cases t; simp_all

instance : Membership α (OrderedSet α) := ⟨fun s a => a ∈ s.elements⟩

theorem mem_elements {s : OrderedSet α} {a : α} : a ∈ s.elements ↔ a ∈ s := .rfl

@[simp] theorem elements_empty : (∅ : OrderedSet α).elements = [] := rfl

variable [DecidableEq α]

/-- Whether an element is in the set. -/
def contains (s : OrderedSet α) (a : α) : Bool := decide (a ∈ s.elements)

theorem contains_iff {s : OrderedSet α} {a : α} : s.contains a = true ↔ a ∈ s := decide_eq_true_iff

/-- The set with `a`, at the end if it is new. -/
def insert (s : OrderedSet α) (a : α) : OrderedSet α where
  elements := if a ∈ s.elements then s.elements else s.elements ++ [a]
  nodup := by
    split
    · exact s.nodup
    · next h =>
      rw [List.nodup_append]
      refine ⟨s.nodup, by simp, ?_⟩
      intro x hx y hy e
      simp only [List.mem_singleton] at hy
      exact h (hy ▸ e ▸ hx)

/-- The set without `a`, the order of the others unchanged. -/
def erase (s : OrderedSet α) (a : α) : OrderedSet α where
  elements := s.elements.filter (· ≠ a)
  nodup := s.nodup.filter _

/-- The set with every element of a list, in turn. -/
def insertAll (s : OrderedSet α) (l : List α) : OrderedSet α := l.foldl insert s

/-- The set of the elements of a list, in order of first occurrence. -/
def ofList (l : List α) : OrderedSet α := insertAll ∅ l

@[simp] theorem elements_insert (s : OrderedSet α) (a : α) :
    (s.insert a).elements = if a ∈ s.elements then s.elements else s.elements ++ [a] := rfl

/-- The elements after an insertion are those before and the new one. -/
theorem mem_insert {s : OrderedSet α} {a b : α} :
    b ∈ (s.insert a).elements ↔ b ∈ s.elements ∨ b = a := by
  rw [elements_insert]
  split
  · next h => exact ⟨Or.inl, fun hb => hb.elim id fun e => e ▸ h⟩
  · simp

theorem mem_insertAll {s : OrderedSet α} {l : List α} {b : α} :
    b ∈ (s.insertAll l).elements ↔ b ∈ s.elements ∨ b ∈ l := by
  induction l generalizing s with
  | nil => simp [insertAll]
  | cons a l ih =>
    have h := ih (s := s.insert a)
    rw [mem_insert] at h
    rw [show s.insertAll (a :: l) = (s.insert a).insertAll l from rfl, h, List.mem_cons, or_assoc]

theorem insertAll_append (s : OrderedSet α) (l m : List α) :
    s.insertAll (l ++ m) = (s.insertAll l).insertAll m := List.foldl_append

/-- An insertion leaves the elements before it where they are. -/
theorem prefix_insert (s : OrderedSet α) (a : α) : s.elements <+: (s.insert a).elements := by
  rw [elements_insert]
  split
  · exact List.prefix_rfl
  · exact List.prefix_append _ _

theorem prefix_insertAll (s : OrderedSet α) (l : List α) :
    s.elements <+: (s.insertAll l).elements := by
  induction l generalizing s with
  | nil => exact List.prefix_rfl
  | cons a l ih => exact (prefix_insert s a).trans (ih (s.insert a))

/-- What two lists add to a set is what the first one adds and then what the second one adds. -/
theorem drop_insertAll_insertAll (s : OrderedSet α) (l m : List α) :
    ((s.insertAll l).insertAll m).elements.drop s.elements.length =
      (s.insertAll l).elements.drop s.elements.length ++
        ((s.insertAll l).insertAll m).elements.drop (s.insertAll l).elements.length := by
  obtain ⟨t, ht⟩ := prefix_insertAll s l
  obtain ⟨u, hu⟩ := prefix_insertAll (s.insertAll l) m
  rw [← hu, ← ht]
  simp

/-- What a list adds to a set are its new elements, each where it occurs first. -/
theorem elements_insertAll [BEq α] [LawfulBEq α] (s : OrderedSet α) (l : List α) :
    (s.insertAll l).elements = s.elements ++ (l.filter (· ∉ s.elements)).eraseDups := by
  induction l generalizing s with
  | nil => simp [insertAll]
  | cons a l ih =>
    rw [show s.insertAll (a :: l) = (s.insert a).insertAll l from rfl, ih, elements_insert]
    by_cases ha : a ∈ s.elements
    · rw [if_pos ha, List.filter_cons_of_neg (by simpa using ha)]
    · rw [if_neg ha, List.filter_cons_of_pos (by simpa using ha), List.eraseDups_cons,
        List.filter_filter, List.append_assoc, List.singleton_append]
      congr 4
      funext b
      by_cases hb : b = a <;> simp [hb]

/-- A set built from a list has its elements in the order in which they first occur. -/
theorem elements_ofList [BEq α] [LawfulBEq α] (l : List α) : (ofList l).elements = l.eraseDups := by
  rw [ofList, elements_insertAll, elements_empty, List.nil_append,
    List.filter_eq_self.2 (by simp)]

/-- What is new and distinct is added as it comes. -/
theorem elements_insertAll_of_nodup {s : OrderedSet α} {l : List α}
    (h : (s.elements ++ l).Nodup) : (s.insertAll l).elements = s.elements ++ l := by
  induction l generalizing s with
  | nil => exact (List.append_nil _).symm
  | cons a l ih =>
    rw [List.append_cons] at h
    have hnew : a ∉ s.elements := fun ha =>
      (List.nodup_append.1 (List.nodup_append.1 h).1).2.2 a ha a (List.mem_singleton_self a) rfl
    have hinsert : (s.insert a).elements = s.elements ++ [a] := by
      rw [elements_insert, if_neg hnew]
    rw [← hinsert] at h
    rw [show s.insertAll (a :: l) = (s.insert a).insertAll l from rfl, ih h, hinsert,
      List.append_assoc, List.singleton_append]

/-- A set built from distinct elements has them as they come. -/
theorem elements_ofList_of_nodup {l : List α} (h : l.Nodup) : (ofList l).elements = l :=
  elements_insertAll_of_nodup (s := ∅) h

/-- A set built from a list has the elements of the list. -/
theorem mem_ofList {l : List α} {b : α} : b ∈ (ofList l).elements ↔ b ∈ l := by
  rw [ofList, mem_insertAll, elements_empty]; simp

end OrderedSet

end CapacityExpansion
