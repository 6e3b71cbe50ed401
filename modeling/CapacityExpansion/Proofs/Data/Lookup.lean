import CapacityExpansion.Data.OrderedMap
import CapacityExpansion.Proofs.Data.Increasing

/-!
# Looking up by key

In a list of things with distinct keys, the first thing with a key is the only
one.

* `find?_key_eq_some_iff`, `find?_key_eq_none_iff`: what is found under a key;
* `OrderedMap.mem_entries_iff`, `OrderedMap.pairwise_entries`,
  `OrderedMap.values_eq_filterMap`: the entries of a map, their order and their values;
* `OrderedMap.forall_entries_insert`, `OrderedMap.forall_getD`: what holds of all
  entries after an insertion, and of what is looked up.
-/

namespace CapacityExpansion

variable {α κ : Type} [DecidableEq κ] {key : α → κ} {k : κ} {a : α} {l : List α}

theorem find?_key_eq_none_iff : l.find? (key · == k) = none ↔ k ∉ l.map key := by
  simp [List.find?_eq_none]

/-- Of things with distinct keys, the one which has the key is found. -/
theorem find?_key_eq_some_iff (h : (l.map key).Nodup) :
    l.find? (key · == k) = some a ↔ a ∈ l ∧ key a = k := by
  constructor
  · intro e
    have hkey := List.find?_some e
    rw [beq_iff_eq] at hkey
    exact ⟨List.mem_of_find?_eq_some e, hkey⟩
  · rintro ⟨ha, rfl⟩
    cases e : l.find? (key · == key a) with
    | none => exact absurd (List.mem_map_of_mem ha) (find?_key_eq_none_iff.1 e)
    | some b =>
      have hkey := List.find?_some e
      rw [beq_iff_eq] at hkey
      rw [List.inj_on_of_nodup_map h (List.mem_of_find?_eq_some e) ha hkey]

/-- What is found first is the first element if that has the property. -/
theorem find?_cons_decide {P : α → Prop} [DecidablePred P] :
    (a :: l).find? (fun b => P b) = if P a then some a else l.find? fun b => P b := by
  rw [List.find?_cons]
  by_cases h : P a <;> simp [h]

/-- Of blocks with distinct keys, what has a key is the block with this key. -/
theorem filter_flatMap_key {β : Type} {f : α → List β} {keyOf : β → κ} (h : (l.map key).Nodup)
    (hf : ∀ a ∈ l, ∀ b ∈ f a, keyOf b = key a) (ha : a ∈ l) :
    (l.flatMap f).filter (keyOf · == key a) = f a := by
  have hself : (f a).filter (keyOf · == key a) = f a :=
    List.filter_eq_self.2 fun b hb => beq_iff_eq.2 (hf a ha b hb)
  obtain ⟨before, after, rfl⟩ := List.append_of_mem ha
  rw [List.map_append, List.map_cons, List.nodup_middle, List.nodup_cons, ← List.map_append] at h
  -- What is before or after has blocks with other keys.
  have hother : ∀ c ∈ before ++ after, (f c).filter (keyOf · == key a) = [] := by
    intro c hc
    refine List.filter_eq_nil_iff.2 fun b hb hkey => h.1 ?_
    have hmem : c ∈ before ++ a :: after :=
      List.perm_middle.mem_iff.2 (List.mem_cons_of_mem _ hc)
    rw [← beq_iff_eq.1 hkey, hf c hmem b hb]
    exact List.mem_map_of_mem hc
  rw [List.forall_mem_append] at hother
  rw [List.filter_flatMap, List.flatMap_append, List.flatMap_cons, hself,
    List.flatMap_eq_nil_iff.2 hother.1, List.flatMap_eq_nil_iff.2 hother.2, List.nil_append,
    List.append_nil]

/-- The entries of a map are in the order of their keys. -/
theorem OrderedMap.pairwise_entries {ν : Type} (m : OrderedMap κ ν) :
    m.entries.Pairwise fun a b => m.keys.idxOf a.1 < m.keys.idxOf b.1 := by
  have h : Increasing m.keys.idxOf (m.entries.map Prod.fst) := increasing_idxOf m.nodup_keys
  rwa [Increasing, List.pairwise_map] at h

/-- The entries of a map are the keys with the values looked up under them. -/
theorem OrderedMap.mem_entries_iff {ν : Type} {m : OrderedMap κ ν} {v : ν} :
    (k, v) ∈ m.entries ↔ m.get? k = some v := by
  obtain ⟨entries, hnodup⟩ := m
  rw [OrderedMap.get?]
  induction entries with
  | nil => simp [OrderedMap.lookup]
  | cons e entries ih =>
    rw [List.map_cons, List.nodup_cons] at hnodup
    rw [OrderedMap.lookup, List.mem_cons]
    split
    · next hk =>
      -- The key is that of the first entry, hence of no other.
      have hnot : (k, v) ∉ entries := fun h =>
        hnodup.1 (hk ▸ List.mem_map_of_mem (f := Prod.fst) h)
      simp [Prod.ext_iff, hnot, hk, eq_comm]
    · next hk =>
      have hne : (k, v) ≠ e := fun h => hk (by rw [← h])
      rw [or_iff_right hne]
      exact ih hnodup.2

/-- The values of a map are those looked up under its keys. -/
theorem OrderedMap.values_eq_filterMap {ν : Type} (m : OrderedMap κ ν) :
    m.values = m.keys.filterMap m.get? := by
  have hentry : ∀ e ∈ m.entries, m.get? e.1 = some e.2 := fun _ he => mem_entries_iff.1 he
  rw [values, keys, List.filterMap_map, ← List.filterMap_eq_map]
  exact (List.filterMap_congr hentry).symm

theorem OrderedMap.forall_entries_empty {ι ν : Type} {P : ι × ν → Prop} :
    ∀ e ∈ (∅ : OrderedMap ι ν).entries, P e :=
  fun _ hmem => absurd hmem List.not_mem_nil

/-- What holds of all entries still does after an insertion if it holds of the new one. -/
theorem OrderedMap.forall_entries_insert {ν : Type} (P : κ → ν → Prop) {m : OrderedMap κ ν} {v : ν}
    (h : ∀ e ∈ m.entries, P e.1 e.2) (hv : P k v) : ∀ e ∈ (m.insert k v).entries, P e.1 e.2 := by
  rintro ⟨k', v'⟩ hmem
  rw [mem_entries_iff] at hmem
  by_cases hk : k' = k
  · subst hk
    rw [get?_insert_self] at hmem
    exact Option.some.inj hmem ▸ hv
  · rw [get?_insert_of_ne m hk] at hmem
    exact h (k', v') (mem_entries_iff.2 hmem)

/-- What holds of all values and of a default holds of the value looked up. -/
theorem OrderedMap.forall_getD {ν : Type} {P : ν → Prop} {m : OrderedMap κ ν} {default : ν}
    (h : ∀ e ∈ m.entries, P e.2) (hdefault : P default) (k : κ) : P ((m.get? k).getD default) := by
  cases hvalue : m.get? k with
  | none => exact hdefault
  | some v => exact h (k, v) (mem_entries_iff.2 hvalue)

end CapacityExpansion
