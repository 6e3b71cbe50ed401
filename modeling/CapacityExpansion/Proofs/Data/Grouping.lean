import CapacityExpansion.Data.OrderedSet
import CapacityExpansion.Proofs.Data.Lookup
import CapacityExpansion.Proofs.Data.Success

/-!
# Rows grouped by key

A loader adds rows to a map one after the other, each one to what is under its key.
If every step keeps it that the map holds the rows so far, grouped by key, then the
map which comes out holds all rows: none is left out, and none has moved to another
key. Which rows a loader takes is known as well, as soon as it is known of each
step: those of which each one fits behind the ones before it.

* `Groups`: a map holds rows, grouped by key;
* `Groups.insert`: what a further row does;
* `Gathers`: the rows which a loader takes, and what it makes of them;
* `gathers_foldlM`: a loader which goes through the rows, step by step;
* `inOrder_nodup_iff`: rows which must be new are distinct ones.
-/

namespace CapacityExpansion

variable {ρ κ ν ι ε σ α : Type}

/-! ## Maps of rows -/

section Groups

variable [DecidableEq κ] {key : ρ → κ} {content : List ρ → ν → Prop} {rows : List ρ}
  {m : OrderedMap κ ν} {row : ρ} {k : κ} {v : ν}

/-- A map holds rows, grouped by key: its keys are those of the rows, in the order in which they
    first occur, and what is under a key is the contents of the rows which have it, in their
    order. -/
structure Groups (key : ρ → κ) (content : List ρ → ν → Prop) (rows : List ρ)
    (m : OrderedMap κ ν) : Prop where
  keys : m.keys = (OrderedSet.ofList (rows.map key)).elements
  content : ∀ k v, m.get? k = some v → content (rows.filter fun row => key row = k) v

theorem mem_map_filter_key_iff {f : ρ → α} {a : α} :
    a ∈ (rows.filter fun row => key row = k).map f ↔ (k, a) ∈ rows.map fun row => (key row, f row) := by
  simp only [List.mem_map, List.mem_filter, decide_eq_true_eq, Prod.mk.injEq, and_assoc]

theorem filter_key_eq_nil_iff : (rows.filter fun row => key row = k) = [] ↔ k ∉ rows.map key := by
  simp [List.filter_eq_nil_iff]

theorem filter_key_append (done : List ρ) (row : ρ) :
    ((done ++ [row]).filter fun other => key other = key row) =
      (done.filter fun other => key other = key row) ++ [row] := by
  simp [List.filter_append]

namespace Groups

theorem nil : Groups key content [] ∅ := ⟨rfl, nofun⟩

variable (h : Groups key content rows m)
include h

theorem mem_keys_iff : k ∈ m.keys ↔ k ∈ rows.map key := by rw [h.keys, OrderedSet.mem_ofList]

theorem get?_eq_none_iff : m.get? k = none ↔ k ∉ rows.map key := by
  rw [← h.mem_keys_iff, OrderedMap.mem_keys_iff, OrderedMap.contains, Option.not_isSome_iff_eq_none]

/-- What is looked up under a key, or nothing at all, is the contents of the rows which have it. -/
theorem content_getD {default : ν} (hdefault : content [] default) (k : κ) :
    content (rows.filter fun row => key row = k) ((m.get? k).getD default) := by
  rcases hv : m.get? k with _ | v
  · rwa [filter_key_eq_nil_iff.2 (h.get?_eq_none_iff.1 hv)]
  · exact h.content k v hv

/-- Under the key of every row there is the contents of some rows, of which it is one. -/
theorem exists_get? (hrow : row ∈ rows) :
    ∃ v own, m.get? (key row) = some v ∧ row ∈ own ∧ content own v := by
  rcases hv : m.get? (key row) with _ | v
  · exact absurd (List.mem_map_of_mem hrow) (h.get?_eq_none_iff.1 hv)
  · exact ⟨v, _, rfl, List.mem_filter.2 ⟨hrow, decide_eq_true rfl⟩, h.content _ v hv⟩

/-- Under a key there is the contents of some rows which have it, and of at least one. -/
theorem exists_rows_of_mem (hmem : (k, v) ∈ m.entries) :
    ∃ own, own ≠ [] ∧ (∀ row ∈ own, row ∈ rows ∧ key row = k) ∧ content own v := by
  refine ⟨_, fun hnil => ?_, fun row hrow => ?_, h.content k v (OrderedMap.mem_entries_iff.1 hmem)⟩
  · exact filter_key_eq_nil_iff.1 hnil (h.mem_keys_iff.1 (List.mem_map_of_mem hmem))
  · rw [List.mem_filter, decide_eq_true_eq] at hrow
    exact hrow

/-- If there are rows then the map is not empty. -/
theorem isEmpty_eq_false (hrows : rows ≠ []) : m.isEmpty = false := by
  obtain ⟨row, hrow⟩ := List.exists_mem_of_ne_nil rows hrows
  obtain ⟨v, -, hv, -⟩ := h.exists_get? hrow
  rw [OrderedMap.isEmpty, List.isEmpty_eq_false_iff]
  exact List.ne_nil_of_mem (OrderedMap.mem_entries_iff.2 hv)

/-- A further row changes what is under its key, and nothing else. -/
theorem insert (hv : content ((rows.filter fun other => key other = key row) ++ [row]) v) :
    Groups key content (rows ++ [row]) (m.insert (key row) v) where
  keys := by
    rw [OrderedMap.keys_insert, List.map_append, OrderedSet.ofList, OrderedSet.insertAll_append,
      h.keys]
    rfl
  content k w hw := by
    rw [OrderedMap.get?_insert] at hw
    by_cases hk : k = key row
    · rw [if_pos hk, Option.some.injEq] at hw
      rw [hk, filter_key_append, ← hw]
      exact hv
    · rw [if_neg hk] at hw
      rw [List.filter_append, List.filter_singleton, decide_eq_false (Ne.symm hk), cond_false,
        List.append_nil]
      exact h.content k w hw

/-- A further row is added to what is under its key, or to nothing at all. -/
theorem upsert {default : ν} {f : ν → ν} (hdefault : content [] default)
    (hf : ∀ v, content (rows.filter fun other => key other = key row) v →
      content ((rows.filter fun other => key other = key row) ++ [row]) (f v)) :
    Groups key content (rows ++ [row]) (m.upsert (key row) default f) :=
  h.insert (hf _ (h.content_getD hdefault (key row)))

end Groups

end Groups

/-! ## Loaders -/

/-- Each row fits behind the ones before it, where some rows come first. -/
def InOrder (fits : List ρ → ρ → Prop) : List ρ → List ρ → Prop
  | _, [] => True
  | done, row :: rows => fits done row ∧ InOrder fits (done ++ [row]) rows

/-- Rows fit one after the other if each one does by itself. -/
theorem inOrder_forall_iff {P : ρ → Prop} {done rows : List ρ} :
    InOrder (fun _ row => P row) done rows ↔ ∀ row ∈ rows, P row := by
  induction rows generalizing done with
  | nil => simp [InOrder]
  | cons row rows ih => rw [InOrder, ih, List.forall_mem_cons]

/-- Rows which must be new, by an identifier of theirs, fit one after the other if they are
    distinct. -/
theorem inOrder_nodup_iff {P : ρ → Prop} {id : ρ → ι} {rows : List ρ} :
    InOrder (fun done row => P row ∧ id row ∉ done.map id) [] rows ↔
      (∀ row ∈ rows, P row) ∧ (rows.map id).Nodup := by
  -- Behind other rows, the rows must differ from these as well.
  suffices h : ∀ done, InOrder (fun done row => P row ∧ id row ∉ done.map id) done rows ↔
      (∀ row ∈ rows, P row) ∧ (rows.map id).Nodup ∧ ∀ row ∈ rows, id row ∉ done.map id by
    rw [h]
    simp
  intro done
  induction rows generalizing done with
  | nil => simp [InOrder]
  | cons row rows ih =>
    have hnew : (∀ other ∈ rows, id other ∉ (done ++ [row]).map id) ↔
        id row ∉ rows.map id ∧ ∀ other ∈ rows, id other ∉ done.map id := by
      simp only [List.map_append, List.mem_append, not_or, List.map_singleton, List.mem_singleton,
        List.mem_map, not_exists, not_and]
      exact ⟨fun h => ⟨fun other hother => (h other hother).2, fun other hother => (h other hother).1⟩,
        fun h other hother => ⟨h.2 other hother, h.1 other hother⟩⟩
    rw [InOrder, ih, hnew, List.forall_mem_cons, List.forall_mem_cons, List.map_cons,
      List.nodup_cons]
    tauto

/-- A loader takes the rows which are accepted, and what it makes of them is as it should be. -/
structure Gathers (load : List ρ → Except ε σ) (accepted : List ρ → Prop)
    (made : List ρ → σ → Prop) : Prop where
  accepts : ∀ rows, (∃ result, load rows = .ok result) ↔ accepted rows
  makes : ∀ rows result, load rows = .ok result → made rows result

theorem Gathers.congr {load : List ρ → Except ε σ} {accepted accepted' : List ρ → Prop}
    {made : List ρ → σ → Prop} (h : Gathers load accepted made)
    (hiff : ∀ rows, accepted rows ↔ accepted' rows) : Gathers load accepted' made :=
  ⟨fun rows => (h.accepts rows).trans (hiff rows), h.makes⟩

/-- A loader which goes through the rows takes those which fit one after the other, if each step
    takes a row which fits, and if what it makes of the rows so far is still as it should be. -/
theorem gathers_foldlM {add : σ → ρ → Except ε σ} {fits : List ρ → ρ → Prop}
    {made : List ρ → σ → Prop} {start : σ} (next : σ → ρ → σ) (hstart : made [] start)
    (hadd : ∀ done s row, made done s → ∀ s', add s row = .ok s' ↔ fits done row ∧ next s row = s')
    (hnext : ∀ done s row, made done s → fits done row → made (done ++ [row]) (next s row)) :
    Gathers (fun rows => rows.foldlM add start) (InOrder fits []) made := by
  -- By induction on the rows to come; what is made of those before them carries it.
  suffices h : ∀ rows done s, made done s →
      ((∃ result, rows.foldlM add s = .ok result) ↔ InOrder fits done rows) ∧
        ∀ result, rows.foldlM add s = .ok result → made (done ++ rows) result from
    ⟨fun rows => (h rows [] start hstart).1, fun rows => (h rows [] start hstart).2⟩
  intro rows
  induction rows with
  | nil =>
    intro done s hs
    rw [List.foldlM_nil, List.append_nil]
    exact ⟨⟨fun _ => trivial, fun _ => ⟨s, rfl⟩⟩, fun result e => Except.ok.inj e ▸ hs⟩
  | cons row rows ih =>
    intro done s hs
    simp only [List.foldlM_cons, bind_ok_iff, hadd done s row hs, InOrder]
    constructor
    · constructor
      · rintro ⟨result, _, ⟨hfits, rfl⟩, hrest⟩
        exact ⟨hfits, (ih _ _ (hnext done s row hs hfits)).1.1 ⟨result, hrest⟩⟩
      · intro ⟨hfits, hrest⟩
        obtain ⟨result, hresult⟩ := (ih _ _ (hnext done s row hs hfits)).1.2 hrest
        exact ⟨result, next s row, ⟨hfits, rfl⟩, hresult⟩
    · rintro result ⟨_, ⟨hfits, rfl⟩, hrest⟩
      rw [List.append_cons]
      exact (ih _ _ (hnext done s row hs hfits)).2 result hrest

/-- The same of a loader which takes rows that are right by themselves and new. -/
theorem gathers_distinct {add : σ → ρ → Except ε σ} {P : ρ → Prop} {id : ρ → ι}
    {made : List ρ → σ → Prop} {start : σ} (next : σ → ρ → σ) (hstart : made [] start)
    (hadd : ∀ done s row, made done s → ∀ s',
      add s row = .ok s' ↔ (P row ∧ id row ∉ done.map id) ∧ next s row = s')
    (hnext : ∀ done s row, made done s → id row ∉ done.map id →
      made (done ++ [row]) (next s row)) :
    Gathers (fun rows => rows.foldlM add start)
      (fun rows => (∀ row ∈ rows, P row) ∧ (rows.map id).Nodup) made :=
  (gathers_foldlM next hstart hadd fun done s row hs hfits => hnext done s row hs hfits.2).congr
    fun _ => inOrder_nodup_iff

end CapacityExpansion
