import CapacityExpansion.Proofs.Data.Grouping
import CapacityExpansion.Proofs.Store.Loading

/-!
# Registering fragments

A fragment is registered for a category under its identifier, and takes the place of
one which is registered there already. So a registry *keeps the latest* of all the
fragments which its category has ever had: in the order in which their identifiers
came up, it has the last fragment of each. A registry whose fragments are under their
identifiers does so to begin with, and every registration goes on in this way.

* `Store.insertFragments`: a run of registrations;
* `KeepsLatest`: a registry keeps the latest of some fragments;
* `FragmentsKeyed.keepsLatest`, `KeepsLatest.insert`: how this starts, and how it goes on;
* `Store.keepsLatest_insertFragments`: the registries after a run;
* `Store.insertFragments_registries`: what is listed and looked up after a run, and what
  stays as it was.
-/

namespace CapacityExpansion

/-! ## Registries -/

/-- The last one of some fragments which has an identifier. -/
def latest? (fragments : List Fragment) (id : Nat) : Option Fragment :=
  (fragments.filter fun fragment => fragment.id = id).getLast?

/-- A registry keeps the latest of some fragments: it has their identifiers, in the order in which
    they first occur, and under each one the last fragment which has it. -/
def KeepsLatest : List Fragment → OrderedMap Nat Fragment → Prop :=
  Groups Fragment.id fun own fragment => own.getLast? = some fragment

variable {registry : OrderedMap Nat Fragment} {ever : List Fragment}

theorem FragmentsKeyed.map_id_values (h : FragmentsKeyed registry) :
    registry.values.map Fragment.id = registry.keys := by
  rw [OrderedMap.values, OrderedMap.keys, List.map_map]
  exact List.map_congr_left h

/-- A registry with its fragments under their identifiers keeps the latest of these. -/
theorem FragmentsKeyed.keepsLatest (h : FragmentsKeyed registry) :
    KeepsLatest registry.values registry where
  keys := by
    rw [h.map_id_values]
    exact (OrderedSet.elements_ofList_of_nodup registry.nodup_keys).symm
  content id fragment hfragment := by
    have hentry := OrderedMap.mem_entries_iff.2 hfragment
    have hmem : fragment ∈ registry.values.filter fun other => other.id = id :=
      List.mem_filter.2 ⟨List.mem_map_of_mem hentry, decide_eq_true (h _ hentry)⟩
    have hnodup : (registry.values.map Fragment.id).Nodup := by
      rw [h.map_id_values]
      exact registry.nodup_keys
    -- No other fragment has the identifier, so the last one which has it is this one.
    rw [List.getLast?_eq_some_getLast (List.ne_nil_of_mem hmem), Option.some.injEq]
    have hlast := List.mem_filter.1 (List.getLast_mem (List.ne_nil_of_mem hmem))
    have hid := List.mem_filter.1 hmem
    exact List.inj_on_of_nodup_map hnodup hlast.1 hid.1
      ((of_decide_eq_true hlast.2).trans (of_decide_eq_true hid.2).symm)

namespace KeepsLatest

/-- A further fragment is the latest, and is kept in the place of one with the same identifier. -/
theorem insert (h : KeepsLatest ever registry) (fragment : Fragment) :
    KeepsLatest (ever ++ [fragment]) (registry.insert fragment.id fragment) :=
  Groups.insert h List.getLast?_concat

variable (h : KeepsLatest ever registry)
include h

theorem keyed : FragmentsKeyed registry := by
  rintro ⟨id, fragment⟩ he
  have hlast := h.content id fragment (OrderedMap.mem_entries_iff.1 he)
  exact of_decide_eq_true (List.mem_filter.1 (List.mem_of_getLast? hlast)).2

/-- What is looked up is the latest fragment with the identifier. -/
theorem get?_eq (id : Nat) : registry.get? id = latest? ever id := by
  rcases hfragment : registry.get? id with _ | fragment
  · rw [latest?, filter_key_eq_nil_iff.2 (h.get?_eq_none_iff.1 hfragment), List.getLast?_nil]
  · exact (h.content id fragment hfragment).symm

/-- The fragments listed have each identifier once, in the order in which they first occur. -/
theorem map_id_values : registry.values.map Fragment.id = (ever.map Fragment.id).eraseDups := by
  rw [h.keyed.map_id_values, h.keys, OrderedSet.elements_ofList]

/-- The fragments listed are those looked up. -/
theorem values_eq :
    registry.values = (ever.map Fragment.id).eraseDups.filterMap (latest? ever) := by
  rw [OrderedMap.values_eq_filterMap, h.keys, OrderedSet.elements_ofList]
  exact List.filterMap_congr fun id _ => h.get?_eq id

end KeepsLatest

/-! ## Registrations -/

namespace Store

variable {s : Store} {category : Category} {calls : List (Category × Fragment)}

/-- The store once some fragments are registered, each for its category, one after the other. -/
def insertFragments (s : Store) (calls : List (Category × Fragment)) : Store :=
  calls.foldl (fun s call => s.insertFragment call.1 call.2) s

/-- The fragments which a run registers for a category. -/
def fragmentsFor (calls : List (Category × Fragment)) (category : Category) : List Fragment :=
  (calls.filter fun call => call.1 = category).map Prod.snd

/-- The fragments which a category has ever had: those registered at first, and then those which a
    run registers for it. -/
def everOf (s : Store) (calls : List (Category × Fragment)) (category : Category) : List Fragment :=
  s.fragmentsOf category ++ fragmentsFor calls category

theorem insertFragments_cons (call : Category × Fragment) : s.insertFragments (call :: calls) =
    (s.insertFragment call.1 call.2).insertFragments calls := rfl

theorem fragmentsFor_cons (call : Category × Fragment) : fragmentsFor (call :: calls) category =
    if call.1 = category then call.2 :: fragmentsFor calls category
    else fragmentsFor calls category := by
  rw [fragmentsFor, List.filter_cons]
  by_cases h : call.1 = category
  · rw [if_pos (decide_eq_true h), if_pos h]
    rfl
  · rw [if_neg (by simpa using h), if_neg h]
    rfl

/-- If a registry keeps the latest of some fragments, then after a run it does of these and those
    which the run registers for its category. -/
theorem keepsLatest_insertFragments {ever : List Fragment}
    (h : KeepsLatest ever (s.registry category)) (calls : List (Category × Fragment)) :
    KeepsLatest (ever ++ fragmentsFor calls category)
      ((s.insertFragments calls).registry category) := by
  induction calls generalizing s ever with
  | nil => rwa [fragmentsFor, List.filter_nil, List.map_nil, List.append_nil]
  | cons call calls ih =>
    rw [insertFragments_cons, fragmentsFor_cons]
    by_cases hcategory : call.1 = category
    · rw [if_pos hcategory, List.append_cons]
      refine ih ?_
      rw [← hcategory, registry_insertFragment, hcategory]
      exact h.insert call.2
    · rw [if_neg hcategory]
      refine ih ?_
      rwa [registry_insertFragment_of_ne _ (Ne.symm hcategory)]

/-- A run changes nothing but the registries. -/
theorem insertFragments_eq : s.insertFragments calls =
    { s with fragments := (s.insertFragments calls).fragments } := by
  induction calls generalizing s with
  | nil => rfl
  | cons call calls ih =>
    rw [insertFragments_cons, ih]
    rfl

/-- A run changes no registry of a category for which it registers nothing. -/
theorem get?_insertFragments_of_notMem (h : category ∉ calls.map Prod.fst) :
    (s.insertFragments calls).fragments.get? category = s.fragments.get? category := by
  induction calls generalizing s with
  | nil => rfl
  | cons call calls ih =>
    rw [List.map_cons, List.mem_cons, not_or] at h
    rw [insertFragments_cons, ih h.2, insertFragment, OrderedMap.get?_upsert, if_neg h.1]

/-- In a store whose fragments are registered under their identifiers they still are after any run
    of registrations. Of each category there is then listed, for every identifier which it has ever
    had and in the order in which these came up, one fragment, the latest with this identifier;
    this is the one looked up, and nothing is looked up under other identifiers. All other tables,
    and the registries of categories for which nothing is registered, are as they were. -/
theorem insertFragments_registries (s : Store) (hkeyed : s.KeyedById)
    (calls : List (Category × Fragment)) :
    (s.insertFragments calls).KeyedById ∧
    (∀ category, ((s.insertFragments calls).fragmentsOf category).map Fragment.id =
      ((s.everOf calls category).map Fragment.id).eraseDups) ∧
    (∀ category, (s.insertFragments calls).fragmentsOf category =
      ((s.everOf calls category).map Fragment.id).eraseDups.filterMap
        (latest? (s.everOf calls category))) ∧
    (∀ category id, (s.insertFragments calls).fragment? ⟨category, id⟩ =
      latest? (s.everOf calls category) id) ∧
    s.insertFragments calls = { s with fragments := (s.insertFragments calls).fragments } ∧
    ∀ category ∉ calls.map Prod.fst,
      (s.insertFragments calls).fragments.get? category = s.fragments.get? category := by
  have hlatest : ∀ category, KeepsLatest (s.everOf calls category)
      ((s.insertFragments calls).registry category) := fun category =>
    keepsLatest_insertFragments (keyedById_iff.1 hkeyed category).keepsLatest calls
  refine ⟨keyedById_iff.2 fun category => (hlatest category).keyed, ?_, ?_, ?_, ?_, ?_⟩
  · exact fun category => (hlatest category).map_id_values
  · exact fun category => (hlatest category).values_eq
  · exact fun category => (hlatest category).get?_eq
  · exact insertFragments_eq
  · exact fun category => get?_insertFragments_of_notMem

/-- A store with a load. -/
def oneLoad : Store := empty.insertFragment .load ⟨1, "low", ""⟩

/-- Another load, a fragment of another category, and then other loads in the place of both. -/
def otherLoads : List (Category × Fragment) :=
  [(.load, ⟨2, "middle", ""⟩), (.temporal, ⟨1, "year", ""⟩), (.load, ⟨1, "lower", ""⟩),
    (.load, ⟨2, "high", ""⟩)]

/-- The loads keep their places, and those registered last are in them. -/
theorem insertFragments_registries_otherLoads : oneLoad.KeyedById ∧
    (oneLoad.insertFragments otherLoads).fragmentsOf .load = [⟨1, "lower", ""⟩, ⟨2, "high", ""⟩] ∧
    (oneLoad.insertFragments otherLoads).fragment? ⟨.load, 2⟩ = some ⟨2, "high", ""⟩ ∧
    (oneLoad.insertFragments otherLoads).fragment? ⟨.load, 3⟩ = none ∧
    (oneLoad.insertFragments otherLoads).fragments.get? .loadZones = none := by
  have hkeyed : oneLoad.KeyedById := by
    unfold KeyedById FragmentsKeyed
    decide
  obtain ⟨-, -, hlisted, hfound, -, hothers⟩ :=
    insertFragments_registries oneLoad hkeyed otherLoads
  exact ⟨hkeyed, (hlisted .load).trans (by decide), (hfound .load 2).trans (by decide),
    (hfound .load 3).trans (by decide), (hothers .loadZones (by decide)).trans (by decide)⟩

end Store

end CapacityExpansion
