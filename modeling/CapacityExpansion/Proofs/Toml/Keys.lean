import CapacityExpansion.Proofs.Data.Lookup
import CapacityExpansion.Toml.Reading

/-!
# Keys of tables

A table of a configuration file is a map: no key occurs twice in it. It is kept
as a list of entries, so this has to be said, of the table and of all tables in
it. It is the case of every table which is read from a text
(`CapacityExpansion.Proofs.Toml.Documents`).

* `Keyed`: no key of a table occurs twice.
-/

namespace CapacityExpansion

namespace Toml

/-! ## Entries of a table -/

section Entries

variable {α : Type} {entries : List (String × α)} {key : String} {a : α}

/-- Entries are looked up as those of a map are. -/
theorem lookUp?_eq_lookup (entries : List (String × α)) (key : String) :
    lookUp? entries key = OrderedMap.lookup key entries := by
  induction entries with
  | nil => rfl
  | cons entry entries ih =>
    rw [OrderedMap.lookup, ← ih, lookUp?, List.find?_cons]
    by_cases h : entry.1 = key
    · rw [if_pos h, beq_iff_eq.2 h]
      rfl
    · rw [if_neg h, beq_eq_false_iff_ne.2 h]
      rfl

/-- Entries are set as those of a map are. -/
theorem setEntry_eq_put (key : String) (a : α) (entries : List (String × α)) :
    setEntry key a entries = OrderedMap.put key a entries := by
  induction entries with
  | nil => rfl
  | cons entry entries ih => rw [setEntry, OrderedMap.put, ih]

/-- If no key occurs twice, then what is looked up under a key is the one entry which has it. -/
theorem lookUp?_eq_some_iff (h : (entries.map Prod.fst).Nodup) :
    lookUp? entries key = some a ↔ (key, a) ∈ entries := by
  rw [lookUp?_eq_lookup]
  exact (OrderedMap.mem_entries_iff (m := ⟨entries, h⟩)).symm

theorem lookUp?_eq_none_iff : lookUp? entries key = none ↔ key ∉ entries.map Prod.fst := by
  rw [← OrderedMap.lookup_isSome_iff, ← lookUp?_eq_lookup, Option.not_isSome_iff_eq_none]

theorem lookUp?_cons (k : String) (a : α) (entries : List (String × α)) (key : String) :
    lookUp? ((k, a) :: entries) key = if k = key then some a else lookUp? entries key := by
  simp only [lookUp?_eq_lookup, OrderedMap.lookup]

theorem lookUp?_setEntry (key : String) (a : α) (entries : List (String × α)) (other : String) :
    lookUp? (setEntry key a entries) other =
      if other = key then some a else lookUp? entries other := by
  rw [setEntry_eq_put, lookUp?_eq_lookup, lookUp?_eq_lookup]
  split
  · next h => rw [h, OrderedMap.lookup_put_self]
  · next h => rw [OrderedMap.lookup_put_of_ne h]

/-- Setting an entry to the value it has already changes nothing. -/
theorem setEntry_of_lookUp? (h : lookUp? entries key = some a) : setEntry key a entries = entries := by
  induction entries with
  | nil => cases h
  | cons entry entries ih =>
    rw [lookUp?_cons] at h
    rw [setEntry]
    by_cases hkey : entry.1 = key
    · rw [if_pos hkey, Option.some.injEq] at h
      rw [if_pos hkey, ← hkey, ← h]
    · rw [if_neg hkey] at h
      rw [if_neg hkey, ih h]

/-- An entry with a new key goes to the end. -/
theorem setEntry_of_new (h : lookUp? entries key = none) :
    setEntry key a entries = entries ++ [(key, a)] := by
  induction entries with
  | nil => rfl
  | cons entry entries ih =>
    rw [lookUp?_eq_none_iff, List.map_cons, List.mem_cons, not_or, ← lookUp?_eq_none_iff] at h
    rw [setEntry, if_neg (Ne.symm h.1), ih h.2, List.cons_append]

theorem nodup_setEntry (h : (entries.map Prod.fst).Nodup) :
    ((setEntry key a entries).map Prod.fst).Nodup := by
  rw [setEntry_eq_put]
  exact (OrderedMap.insert ⟨entries, h⟩ key a).nodup_keys

variable {β : Type} (f : α → β)

theorem lookUp?_map (entries : List (String × α)) (key : String) :
    lookUp? (entries.map (Prod.map id f)) key = (lookUp? entries key).map f := by
  induction entries with
  | nil => rfl
  | cons entry entries ih =>
    rw [List.map_cons, Prod.map, lookUp?_cons, lookUp?_cons, ih, id]
    split
    · rfl
    · rfl

theorem setEntry_map (key : String) (a : α) (entries : List (String × α)) :
    (setEntry key a entries).map (Prod.map id f) =
      setEntry key (f a) (entries.map (Prod.map id f)) := by
  induction entries with
  | nil => rfl
  | cons entry entries ih =>
    rw [List.map_cons, Prod.map, setEntry, setEntry, id]
    split
    · rfl
    · rw [List.map_cons, ih]
      rfl

end Entries

/-- No key of a table occurs twice, nor does one of any table in it. -/
inductive Keyed : Table → Prop
  | intro {t : Table} : (t.map Prod.fst).Nodup →
      (∀ key inner, lookUp? t key = some (.table inner) → Keyed inner) → Keyed t

namespace Keyed

variable {t : Table}

theorem nil : Keyed [] := .intro List.nodup_nil nofun

/-- A table with a further entry under a new key. -/
theorem cons {key : String} {v : Value} (hkey : key ∉ t.map Prod.fst)
    (hv : ∀ inner, v = .table inner → Keyed inner) (ht : Keyed t) : Keyed ((key, v) :: t) := by
  obtain ⟨hnodup, hinner⟩ := ht
  refine .intro (List.nodup_cons.2 ⟨hkey, hnodup⟩) fun other inner h => ?_
  rw [lookUp?_cons] at h
  split at h
  · exact hv inner (Option.some.inj h)
  · exact hinner other inner h

theorem nodup (h : Keyed t) : (t.map Prod.fst).Nodup := by
  obtain ⟨hnodup, -⟩ := h
  exact hnodup

theorem inner {inner : Table} {key : String} (h : Keyed t)
    (hkey : lookUp? t key = some (.table inner)) : Keyed inner := by
  obtain ⟨-, hinner⟩ := h
  exact hinner key inner hkey

/-- A table with an entry set to a value. -/
theorem setEntry {key : String} {v : Value} (ht : Keyed t)
    (hv : ∀ inner, v = .table inner → Keyed inner) : Keyed (setEntry key v t) := by
  refine .intro (nodup_setEntry ht.nodup) fun other inner h => ?_
  rw [lookUp?_setEntry] at h
  split at h
  · exact hv inner (Option.some.inj h)
  · exact ht.inner h

/-- A table without the entry of a key. -/
theorem remove (ht : Keyed t) (key : String) : Keyed (t.filter (·.1 ≠ key)) := by
  have hnodup : ((t.filter (·.1 ≠ key)).map Prod.fst).Nodup :=
    ht.nodup.sublist (List.filter_sublist.map Prod.fst)
  refine .intro hnodup fun other inner h => ?_
  rw [lookUp?_eq_some_iff hnodup, List.mem_filter] at h
  exact ht.inner ((lookUp?_eq_some_iff ht.nodup).2 h.1)

end Keyed

end Toml

end CapacityExpansion
