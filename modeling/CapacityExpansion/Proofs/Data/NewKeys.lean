import CapacityExpansion.Data.OrderedSet
import CapacityExpansion.Proofs.Data.Lookup

/-!
# Keys which should be new

Pairs are put into a map one after the other, each under a key which should be new.
Of each pair it is told whether its key was. But a pair whose key is present is put
into the map all the same: the keys stay as they are, and the value takes the place of
the one before it. So the map holds under each key the value which came last, in the
order in which the keys came first. Who stops at the first key which is not new has
nothing but new pairs up to there, and these are at the end of the map, as they came.

* `insertEachNew`: a run of such insertions;
* `entries_insert_of_mem`, `entries_insert_of_notMem`: what one insertion does;
* `insertNew_replaces`: what a run does, and what it tells;
* `exists_insertNew_replaces`: a value which is lost although its key was told not to be
  new.
-/

namespace CapacityExpansion.OrderedMap

variable {κ ν : Type} [DecidableEq κ] {m : OrderedMap κ ν} {key : κ} {value : ν}
  {calls more : List (κ × ν)}

/-- The map once some pairs are put into it, each under a key which should be new, and of each pair
    whether its key was. -/
def insertEachNew (m : OrderedMap κ ν) : List (κ × ν) → OrderedMap κ ν × List Bool
  | [] => (m, [])
  | (key, value) :: calls =>
    let (next, isNew) := m.insertNew key value
    let (last, areNew) := next.insertEachNew calls
    (last, isNew :: areNew)

/-! ## One insertion -/

theorem put_of_notMem {l : List (κ × ν)} (h : key ∉ l.map Prod.fst) :
    put key value l = l ++ [(key, value)] := by
  induction l with
  | nil => rfl
  | cons e l ih =>
    rw [List.map_cons, List.mem_cons, not_or] at h
    rw [put, if_neg (Ne.symm h.1), ih h.2, List.cons_append]

theorem put_of_mem {l : List (κ × ν)} (hnodup : (l.map Prod.fst).Nodup)
    (h : key ∈ l.map Prod.fst) :
    put key value l = l.map fun e => if e.1 = key then (key, value) else e := by
  induction l with
  | nil => cases h
  | cons e l ih =>
    rw [List.map_cons, List.nodup_cons] at hnodup
    rw [put, List.map_cons]
    by_cases he : e.1 = key
    · -- No entry behind this one has the key, so they all stay.
      have hrest : ∀ e' ∈ l, (if e'.1 = key then (key, value) else e') = e' := by
        intro e' he'
        have hne : e'.1 ≠ key := fun hkey =>
          hnodup.1 (List.mem_map.2 ⟨e', he', hkey.trans he.symm⟩)
        exact if_neg hne
      rw [if_pos he, if_pos he, List.map_congr_left hrest, List.map_id']
    · rw [if_neg he, if_neg he, ih hnodup.2 ((List.mem_cons.1 h).resolve_left (Ne.symm he))]

/-- A new key is put at the end. -/
theorem entries_insert_of_notMem (h : key ∉ m.keys) :
    (m.insert key value).entries = m.entries ++ [(key, value)] :=
  put_of_notMem h

/-- Under a key which is present, the value is replaced where it is. -/
theorem entries_insert_of_mem (h : key ∈ m.keys) :
    (m.insert key value).entries = m.entries.map fun e => if e.1 = key then (key, value) else e :=
  put_of_mem m.nodup_keys h

/-- An insertion changes nothing if and only if the value is there already. -/
theorem insert_eq_self_iff : m.insert key value = m ↔ m.get? key = some value := by
  constructor
  · intro h
    rw [← h, get?_insert_self]
  · intro h
    have hentry := mem_entries_iff.2 h
    have hkey : key ∈ m.keys := List.mem_map_of_mem hentry
    refine ext ((entries_insert_of_mem hkey).trans ?_)
    rw [List.map_congr_left (g := id), List.map_id]
    rintro ⟨key', value'⟩ he
    split
    · next hkey' =>
      obtain rfl : key' = key := hkey'
      have hvalue := (mem_entries_iff.1 he).symm.trans h
      rw [Option.some.inj hvalue, id]
    · rfl

/-- A key is told not to be new if and only if it is present. -/
theorem insertNew_snd_eq_false_iff : (m.insertNew key value).2 = false ↔ key ∈ m.keys := by
  rw [insertNew, mem_keys_iff, Bool.not_eq_false']

theorem insertNew_snd_eq_decide (m : OrderedMap κ ν) (key : κ) (value : ν) :
    (m.insertNew key value).2 = decide (key ∉ m.keys) := by
  have hpresent : (m.insertNew key value).2 = false ↔ key ∈ m.keys := insertNew_snd_eq_false_iff
  rw [Bool.eq_iff_iff, decide_eq_true_iff, ← hpresent, Bool.not_eq_false]

/-! ## Runs -/

theorem insertEachNew_cons (call : κ × ν) : m.insertEachNew (call :: calls) =
    (((m.insert call.1 call.2).insertEachNew calls).1,
      decide (call.1 ∉ m.keys) :: ((m.insert call.1 call.2).insertEachNew calls).2) := by
  rw [← insertNew_snd_eq_decide m call.1 call.2]
  rfl

theorem insertEachNew_append : m.insertEachNew (calls ++ more) =
    (((m.insertEachNew calls).1.insertEachNew more).1,
      (m.insertEachNew calls).2 ++ ((m.insertEachNew calls).1.insertEachNew more).2) := by
  induction calls generalizing m with
  | nil => rfl
  | cons call calls ih => rw [List.cons_append, insertEachNew_cons, insertEachNew_cons, ih]; rfl

theorem length_insertEachNew : (m.insertEachNew calls).2.length = calls.length := by
  induction calls generalizing m with
  | nil => rfl
  | cons call calls ih => rw [insertEachNew_cons, List.length_cons, ih, List.length_cons]

/-- The keys of a run are added to those of the map, like elements to a set. -/
theorem keys_insertEachNew_eq_insertAll : (m.insertEachNew calls).1.keys =
    (OrderedSet.insertAll ⟨m.keys, m.nodup_keys⟩ (calls.map Prod.fst)).elements := by
  induction calls generalizing m with
  | nil => rfl
  | cons call calls ih =>
    have hset : (⟨(m.insert call.1 call.2).keys, (m.insert call.1 call.2).nodup_keys⟩ :
        OrderedSet κ) = OrderedSet.insert ⟨m.keys, m.nodup_keys⟩ call.1 :=
      OrderedSet.ext (keys_insert m call.1 call.2)
    rw [insertEachNew_cons, ih, hset]
    rfl

theorem mem_keys_insertEachNew :
    key ∈ (m.insertEachNew calls).1.keys ↔ key ∈ m.keys ∨ key ∈ calls.map Prod.fst := by
  rw [keys_insertEachNew_eq_insertAll, OrderedSet.mem_insertAll]

/-- After a run there is under each key what came last, or what was there before. -/
theorem get?_insertEachNew : (m.insertEachNew calls).1.get? key =
    ((calls.reverse.find? (·.1 == key)).map Prod.snd).or (m.get? key) := by
  induction calls generalizing m with
  | nil => rfl
  | cons call calls ih =>
    rw [insertEachNew_cons, ih, List.reverse_cons, List.find?_append, get?_insert,
      List.find?_singleton]
    -- A later pair with the key decides; if there is none, this pair does if it has the key.
    rcases hlater : calls.reverse.find? (·.1 == key) with _ | later
    · by_cases hkey : key = call.1
      · simp [hkey]
      · simp [hlater, hkey, Ne.symm hkey]
    · rw [hlater]
      rfl

/-- A key is new if it is neither in the map nor that of an earlier pair. -/
theorem getElem?_insertEachNew (before : List (κ × ν)) (call : κ × ν) (after : List (κ × ν)) :
    (m.insertEachNew (before ++ call :: after)).2[before.length]? =
      some (decide (call.1 ∉ m.keys ∧ call.1 ∉ before.map Prod.fst)) := by
  rw [insertEachNew_append, insertEachNew_cons, ← length_insertEachNew (m := m),
    List.getElem?_append_right (Nat.le_refl _), Nat.sub_self, List.getElem?_cons_zero]
  simp only [mem_keys_insertEachNew, not_or]

/-- If all keys are new then the pairs are at the end of the map, as they came. -/
theorem entries_insertEachNew (h : ∀ isNew ∈ (m.insertEachNew calls).2, isNew = true) :
    (m.insertEachNew calls).1.entries = m.entries ++ calls := by
  induction calls generalizing m with
  | nil => exact (List.append_nil _).symm
  | cons call calls ih =>
    rw [insertEachNew_cons, List.forall_mem_cons, decide_eq_true_iff] at h
    rw [insertEachNew_cons, ih h.2, entries_insert_of_notMem h.1, List.append_assoc,
      List.singleton_append]

/-- A key is told not to be new exactly if it is present. Then the map keeps its keys and their
    order, but the value is replaced, so that the map is as it was only if the two values are the
    same; a new key goes to the end with its value, and nothing else is changed. After a run, the
    keys are in order of first insertion, and under each one is what came last; if all of them were
    new, the pairs are at the end as they came. -/
theorem insertNew_replaces (m : OrderedMap κ ν) (calls : List (κ × ν)) :
    (∀ key value, ((m.insertNew key value).2 = false ↔ key ∈ m.keys) ∧
      (key ∉ m.keys → (m.insertNew key value).1.entries = m.entries ++ [(key, value)]) ∧
      (key ∈ m.keys → (m.insertNew key value).1.entries =
        m.entries.map fun e => if e.1 = key then (key, value) else e) ∧
      ((m.insertNew key value).1 = m ↔ m.get? key = some value)) ∧
    (∀ before call after, calls = before ++ call :: after →
      (m.insertEachNew calls).2[before.length]? =
        some (decide (call.1 ∉ m.keys ∧ call.1 ∉ before.map Prod.fst))) ∧
    (m.insertEachNew calls).1.keys =
      m.keys ++ ((calls.map Prod.fst).filter (· ∉ m.keys)).eraseDups ∧
    (∀ key, (m.insertEachNew calls).1.get? key =
      ((calls.reverse.find? (·.1 == key)).map Prod.snd).or (m.get? key)) ∧
    ((∀ isNew ∈ (m.insertEachNew calls).2, isNew = true) →
      (m.insertEachNew calls).1.entries = m.entries ++ calls) := by
  refine ⟨fun key value => ?_, ?_, ?_, fun _ => get?_insertEachNew, entries_insertEachNew⟩
  · exact ⟨insertNew_snd_eq_false_iff, entries_insert_of_notMem, entries_insert_of_mem,
      insert_eq_self_iff⟩
  · rintro before call after rfl
    exact getElem?_insertEachNew before call after
  · rw [keys_insertEachNew_eq_insertAll, OrderedSet.elements_insertAll]

/-- Of two pairs with one key the second one is told that its key is not new, and replaces the
    first one. -/
theorem insertNew_replaces_repeated :
    ((∅ : OrderedMap String Nat).insertEachNew [("a", 1), ("b", 2), ("a", 3)]).2[2]? = some false ∧
    ((∅ : OrderedMap String Nat).insertEachNew [("a", 1), ("b", 2), ("a", 3)]).1.get? "a" =
      some 3 ∧
    ((∅ : OrderedMap String Nat).insertEachNew [("a", 1), ("b", 2)]).1.entries =
      [("a", 1), ("b", 2)] := by
  obtain ⟨-, htold, -, hlast, -⟩ :=
    insertNew_replaces (∅ : OrderedMap String Nat) [("a", 1), ("b", 2), ("a", 3)]
  obtain ⟨-, -, -, -, hnew⟩ := insertNew_replaces (∅ : OrderedMap String Nat) [("a", 1), ("b", 2)]
  exact ⟨(htold [("a", 1), ("b", 2)] ("a", 3) [] rfl).trans (by decide),
    (hlast "a").trans (by decide), hnew (by decide)⟩

/-- A value is lost although its key is told not to be new: the map is neither as it was, nor does
    it hold what was stored first. -/
theorem exists_insertNew_replaces : ∃ m : OrderedMap String Nat,
    m.get? "a" = some 1 ∧ (m.insertNew "a" 3).2 = false ∧ (m.insertNew "a" 3).1 ≠ m ∧
    (m.insertNew "a" 3).1.get? "a" = some 3 :=
  ⟨.ofList [("a", 1), ("b", 2)], by decide, by decide, by decide, by decide⟩

end CapacityExpansion.OrderedMap
