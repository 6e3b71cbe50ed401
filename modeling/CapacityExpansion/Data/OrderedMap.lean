/-!
# Insertion-ordered maps

A map from keys to values which remembers the order its keys were first
inserted in. Every registry and every table of the library is one: what a
reader sees of it (a listing, a file, the order violations are found in) is the
order of insertion, never an accident of storage.

A map *is* its list of entries; that no key occurs twice is part of the type.
Inserting under a key already present replaces the value and keeps the place;
a new key goes to the end (`keys_insert`).

* `get?_insert_self`, `get?_insert_of_ne`: what an insertion does to lookups;
* `keys_insert`: what it does to the order;
* `mem_keys_iff`: a key is present if and only if it is looked up.
-/

namespace CapacityExpansion

variable {κ ν μ : Type}

/-- A map from `κ` to `ν`, ordered by first insertion. -/
structure OrderedMap (κ ν : Type) where
  /-- The entries, in order of first insertion of their keys. -/
  entries : List (κ × ν)
  /-- No key has two entries. -/
  nodup_keys : (entries.map Prod.fst).Nodup

namespace OrderedMap

instance [DecidableEq κ] [DecidableEq ν] : DecidableEq (OrderedMap κ ν) := fun a b =>
  match a, b with
  | ⟨x, _⟩, ⟨y, _⟩ =>
    if h : x = y then isTrue (by subst h; rfl) else isFalse fun e => h (by injection e)

/-- The map without entries. -/
def empty : OrderedMap κ ν := ⟨[], List.nodup_nil⟩

instance : EmptyCollection (OrderedMap κ ν) := ⟨empty⟩

instance : Inhabited (OrderedMap κ ν) := ⟨empty⟩

@[ext] theorem ext {m n : OrderedMap κ ν} (h : m.entries = n.entries) : m = n := by
  cases m; cases n; simp_all

/-- The keys, in order of first insertion. -/
def keys (m : OrderedMap κ ν) : List κ := m.entries.map Prod.fst

/-- The values, in the order of their keys. -/
def values (m : OrderedMap κ ν) : List ν := m.entries.map Prod.snd

/-- The number of entries. -/
def size (m : OrderedMap κ ν) : Nat := m.entries.length

/-- Whether the map has no entries. -/
def isEmpty (m : OrderedMap κ ν) : Bool := m.entries.isEmpty

/-- The map with every value replaced by its image, keys and order unchanged. -/
def mapValues (f : κ → ν → μ) (m : OrderedMap κ ν) : OrderedMap κ μ where
  entries := m.entries.map fun e => (e.1, f e.1 e.2)
  nodup_keys := by
    have h : (m.entries.map fun e => (e.1, f e.1 e.2)).map Prod.fst = m.entries.map Prod.fst := by
      rw [List.map_map]; rfl
    rw [h]; exact m.nodup_keys

variable [DecidableEq κ]

/-- The value of the first entry of a key. -/
def lookup (key : κ) : List (κ × ν) → Option ν
  | [] => none
  | (k, v) :: rest => if k = key then some v else lookup key rest

/-- The entries once `value` is put under `key`: in the place of the key's entry if there is one,
    else at the end. -/
def put (key : κ) (value : ν) : List (κ × ν) → List (κ × ν)
  | [] => [(key, value)]
  | (k, v) :: rest => if k = key then (key, value) :: rest else (k, v) :: put key value rest

/-- Putting a value under a key keeps the keys, and appends the key if it is new. -/
theorem keys_put (key : κ) (value : ν) (l : List (κ × ν)) :
    (put key value l).map Prod.fst =
      if key ∈ l.map Prod.fst then l.map Prod.fst else l.map Prod.fst ++ [key] := by
  induction l with
  | nil => simp [put]
  | cons e rest ih =>
    obtain ⟨k, v⟩ := e
    by_cases h : k = key
    · simp [put, h]
    · have h' : ¬ key = k := fun e => h e.symm
      simp only [put, h, if_false, List.map_cons, ih, List.mem_cons, h', false_or]
      split <;> simp

/-- The value under a key, if the key is present. -/
def get? (m : OrderedMap κ ν) (key : κ) : Option ν := lookup key m.entries

/-- Whether a key is present. -/
def contains (m : OrderedMap κ ν) (key : κ) : Bool := (m.get? key).isSome

/-- The map with `value` under `key`: replacing the value in its place if the key is present, and
    appending the entry else. -/
def insert (m : OrderedMap κ ν) (key : κ) (value : ν) : OrderedMap κ ν where
  entries := put key value m.entries
  nodup_keys := by
    rw [keys_put]
    split
    · exact m.nodup_keys
    · next h =>
      rw [List.nodup_append]
      refine ⟨m.nodup_keys, by simp, ?_⟩
      intro a ha b hb e
      simp only [List.mem_singleton] at hb
      exact h (hb ▸ e ▸ ha)

/-- The map with `value` under a key which should be new, and whether it was. A value which is
    there already is replaced all the same. -/
def insertNew (m : OrderedMap κ ν) (key : κ) (value : ν) : OrderedMap κ ν × Bool :=
  (m.insert key value, !m.contains key)

/-- The map with the value under `key` replaced by its image, starting from `default` if the key
    is new. -/
def upsert (m : OrderedMap κ ν) (key : κ) (default : ν) (f : ν → ν) : OrderedMap κ ν :=
  m.insert key (f ((m.get? key).getD default))

/-- The map of a list of pairs, later pairs replacing the values of earlier ones. -/
def ofList (pairs : List (κ × ν)) : OrderedMap κ ν :=
  pairs.foldl (fun m e => m.insert e.1 e.2) ∅

@[simp] theorem get?_empty (key : κ) : (∅ : OrderedMap κ ν).get? key = none := rfl

theorem lookup_put_self (key : κ) (value : ν) (l : List (κ × ν)) :
    lookup key (put key value l) = some value := by
  induction l with
  | nil => simp [put, lookup]
  | cons e rest ih =>
    obtain ⟨k, v⟩ := e
    by_cases h : k = key <;> simp [put, lookup, h, ih]

theorem lookup_put_of_ne {key other : κ} (h : other ≠ key) (value : ν) (l : List (κ × ν)) :
    lookup other (put key value l) = lookup other l := by
  induction l with
  | nil => simp [put, lookup, Ne.symm h]
  | cons e rest ih =>
    obtain ⟨k, v⟩ := e
    by_cases hk : k = key
    · subst hk; simp [put, lookup, Ne.symm h]
    · simp [put, lookup, hk, ih]

/-- The value just inserted is the value looked up. -/
@[simp] theorem get?_insert_self (m : OrderedMap κ ν) (key : κ) (value : ν) :
    (m.insert key value).get? key = some value :=
  lookup_put_self key value m.entries

/-- An insertion changes no other lookup. -/
theorem get?_insert_of_ne (m : OrderedMap κ ν) {key other : κ} (h : other ≠ key) (value : ν) :
    (m.insert key value).get? other = m.get? other :=
  lookup_put_of_ne h value m.entries

/-- What is looked up after an insertion. -/
theorem get?_insert (m : OrderedMap κ ν) (key other : κ) (value : ν) :
    (m.insert key value).get? other = if other = key then some value else m.get? other := by
  split
  · next h => rw [h, get?_insert_self]
  · next h => exact get?_insert_of_ne m h value

/-- What is looked up after the value under a key was replaced by its image. -/
theorem get?_upsert (m : OrderedMap κ ν) (key other : κ) (default : ν) (f : ν → ν) :
    (m.upsert key default f).get? other =
      if other = key then some (f ((m.get? other).getD default)) else m.get? other := by
  rw [upsert, get?_insert]
  split
  · next h => rw [h]
  · rfl

/-- An insertion keeps the order of the keys, and appends a new one. -/
theorem keys_insert (m : OrderedMap κ ν) (key : κ) (value : ν) :
    (m.insert key value).keys = if key ∈ m.keys then m.keys else m.keys ++ [key] :=
  keys_put key value m.entries

theorem lookup_isSome_iff (key : κ) (l : List (κ × ν)) :
    (lookup key l).isSome ↔ key ∈ l.map Prod.fst := by
  induction l with
  | nil => simp [lookup]
  | cons e rest ih =>
    obtain ⟨k, v⟩ := e
    by_cases h : k = key
    · simp [lookup, h]
    · have h' : ¬ key = k := fun e => h e.symm
      simpa [lookup, h, h'] using ih

/-- A key is among the keys if and only if it is present. -/
theorem mem_keys_iff (m : OrderedMap κ ν) (key : κ) : key ∈ m.keys ↔ m.contains key = true :=
  (lookup_isSome_iff key m.entries).symm

end OrderedMap

end CapacityExpansion
