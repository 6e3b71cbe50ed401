import CapacityExpansion.Integrity.Validation
import CapacityExpansion.Proofs.Data.Increasing
import CapacityExpansion.Proofs.Data.Lookup

/-!
# Offences against references

What a cross-reference does not allow is an *offence* of the fragment which
refers to something: a project fragment which is named and does not exist, an
entity which is not covered, an entity or a zone which is not within the other
fragment. An offence is said without reference to how it is looked for: it
*holds* of a store if the contents of the fragments are such.

The messages about a reference are those of its offences, in the order of the
table in which they are found.

* `map_message_offences`: the messages about a reference are those of a list of
  offences;
* `mem_offences`: the list has the offences against the reference which hold;
* `pairwise_offences`: they are in the order of their places.
-/

namespace CapacityExpansion.Integrity

/-- What a fragment has or lacks against a reference. -/
inductive Offence where
  /-- A row of operational characteristics names a project fragment which does not exist. -/
  | missingFragment (category : ProjectCategory) (row project : EntityName) (id : Nat)
  /-- An entity of another fragment has no entry. -/
  | uncovered (other : Selector) (entity : EntityName)
  /-- An entity is not one of another fragment. -/
  | outside (other : Selector) (entity : EntityName)
  /-- A zone which an entity is assigned to is not one of another fragment. -/
  | outsideZone (other : Selector) (entity zone : EntityName)
  deriving DecidableEq, Repr

variable (store : Store) (s : Scenario)

/-- A fragment is selected and exists. -/
def Registered (selector : Selector) : Prop :=
  s.selected selector.category = some selector.id ∧ (store.fragment? selector).isSome

/-- The operational characteristics of a fragment. -/
def operationalRows (fragment : Selector) : OrderedMap EntityName OperationalChars :=
  (store.operationalChars.get? fragment.id).getD ∅

/-- The entities which are members of a fragment. -/
def memberSet (fragment : Selector) : OrderedSet EntityName := (store.members.get? fragment).getD ∅

/-- The zones which a fragment assigns to entities. -/
def zoneMap (fragment : Selector) : ZoneMap := (store.zones.get? fragment).getD ∅

namespace Offence

/-- The dependency which is offended against. -/
def dependency : Offence → Dependency
  | missingFragment category .. => .subFragment category
  | uncovered other _ => .coversEntities other.category
  | outside other _ => .entitiesWithin other.category
  | outsideZone other .. => .zonesWithin other.category

/-- The fragment at the other end of the reference, if that is a selected one. -/
def other? : Offence → Option Selector
  | missingFragment .. => none
  | uncovered other _ | outside other _ | outsideZone other .. => some other

/-- The message about an offence. -/
def message : Offence → String
  | missingFragment category _ project id => project ++ " refers to " ++ category.title ++
      s!" subscenario {id}, which does not exist for that project"
  | uncovered other entity => entity ++ " is in " ++ other.text ++ " but has no entry in this fragment"
  | outside other entity => entity ++ " is not in " ++ other.text
  | outsideZone other entity zone =>
    entity ++ " is assigned to zone " ++ zone ++ ", which is not in " ++ other.text

/-- The contents of the fragments are as an offence says. -/
def Holds (dependent : Selector) : Offence → Prop
  | missingFragment category row project id => ∃ chars,
      (operationalRows store dependent).get? row = some chars ∧ chars.project = project ∧
        chars.subFragment category = some id ∧ store.projectFragment? category project id = none
  | uncovered other entity => entity ∈ store.entities other ∧ entity ∉ store.entities dependent
  | outside other entity => entity ∈ store.entities dependent ∧ entity ∉ store.entities other
  | outsideZone other entity zone => ∃ zones, (zoneMap store dependent).get? entity = some zones ∧
      zone ∈ zones ∧ zone ∉ store.entities other

/-- The place of an offence in the table in which it is found. -/
def place (dependent : Selector) : Offence → List Nat
  | missingFragment _ row .. => [(operationalRows store dependent).keys.idxOf row]
  | uncovered other entity => [(store.entities other).elements.idxOf entity]
  | outside _ entity => [(store.entities dependent).elements.idxOf entity]
  | outsideZone _ entity zone =>
    let zones := ((zoneMap store dependent).get? entity).getD ∅
    [(zoneMap store dependent).keys.idxOf entity, zones.elements.idxOf zone]

end Offence

open Offence

/-- The offences of a selected fragment against what it depends on. -/
def offences (dependent : Selector) (dependency : Dependency) : List Offence :=
  let onSelected (category : Category) (found : Selector → List Offence) : List Offence :=
    (registeredSelector? store s category).elim [] found
  match dependency with
  | .subFragment category => (operationalRows store dependent).entries.filterMap fun (row, chars) =>
      (chars.subFragment category).bind fun id =>
        if (store.projectFragment? category chars.project id).isSome then none
        else some (missingFragment category row chars.project id)
  | .coversEntities category => onSelected category fun other =>
      (missingFrom store other dependent).map (uncovered other)
  | .entitiesWithin category => onSelected category fun other =>
      (missingFrom store dependent other).map (outside other)
  | .zonesWithin category => onSelected category fun other =>
      ((zonePairs store dependent).filter fun p => !(store.entities other).contains p.2).map fun p =>
        outsideZone other p.1 p.2

variable {store s}

theorem registeredSelector?_eq_some_iff {category : Category} {selector : Selector} :
    registeredSelector? store s category = some selector ↔
      selector.category = category ∧ Registered store s selector := by
  obtain ⟨c, id⟩ := selector
  simp only [registeredSelector?, Option.filter_eq_some_iff, Scenario.selector?,
    Option.map_eq_some_iff, Selector.mk.injEq, Registered]
  constructor
  · rintro ⟨⟨_, hid, rfl, rfl⟩, hsome⟩
    exact ⟨rfl, hid, hsome⟩
  · rintro ⟨rfl, hid, hsome⟩
    exact ⟨⟨id, hid, rfl, rfl⟩, hsome⟩

section OfRegistered

/-! Things found if a fragment is registered for a category. -/

variable {α β : Type} {category : Category} {found : Selector → List α}

theorem mem_ofRegistered {a : α} :
    a ∈ (registeredSelector? store s category).elim [] found ↔
      ∃ other, other.category = category ∧ Registered store s other ∧ a ∈ found other := by
  simp only [← and_assoc, ← registeredSelector?_eq_some_iff]
  cases registeredSelector? store s category <;> simp

theorem map_ofRegistered (f : α → β) :
    ((registeredSelector? store s category).elim [] found).map f =
      (registeredSelector? store s category).elim [] fun other => (found other).map f := by
  cases registeredSelector? store s category <;> rfl

theorem pairwise_ofRegistered {R : α → α → Prop}
    (h : ∀ other, other.category = category → (found other).Pairwise R) :
    ((registeredSelector? store s category).elim [] found).Pairwise R := by
  cases hother : registeredSelector? store s category with
  | none => exact .nil
  | some other => exact h other (registeredSelector?_eq_some_iff.1 hother).1

end OfRegistered

/-! ## Contents of fragments -/

theorem values_operationalRows (fragment : Selector) :
    ((store.operationalChars.get? fragment.id).map OrderedMap.values).getD [] =
      (operationalRows store fragment).values := by
  rw [operationalRows]
  cases store.operationalChars.get? fragment.id <;> rfl

/-- The entities of a fragment are its members, those which it assigns zones to, and the projects
    which it describes. -/
theorem entities_eq (fragment : Selector) :
    store.entities fragment = .ofList ((memberSet store fragment).elements ++
      (zoneMap store fragment).keys ++
        if fragment.category = .projectOperationalChars then (operationalRows store fragment).keys
        else []) := by
  rw [Store.entities, memberSet, zoneMap, operationalRows]
  cases store.members.get? fragment <;> cases store.zones.get? fragment <;>
    cases store.operationalChars.get? fragment.id <;> rfl

/-- The entities of a fragment are named by its members, by its zones, or by its characteristics. -/
theorem mem_entities_iff {fragment : Selector} {entity : EntityName} :
    entity ∈ store.entities fragment ↔
      entity ∈ memberSet store fragment ∨ entity ∈ (zoneMap store fragment).keys ∨
        fragment.category = .projectOperationalChars ∧
          entity ∈ (operationalRows store fragment).keys := by
  rw [← OrderedSet.mem_elements, entities_eq, OrderedSet.mem_ofList]
  by_cases hcategory : fragment.category = .projectOperationalChars <;>
    simp [hcategory, OrderedSet.mem_elements]

theorem zonePairs_eq (fragment : Selector) :
    zonePairs store fragment = (zoneMap store fragment).entries.flatMap fun (entity, zones) =>
      zones.elements.map fun zone => (entity, zone) := by
  rw [zonePairs, zoneMap]
  cases store.zones.get? fragment <;> rfl

/-! ## What is found -/

/-- The messages about a reference are those of its offences. -/
theorem map_message_offences (dependent : Selector) (dependency : Dependency) :
    (offences store s dependent dependency).map message =
      dependencyProblems store s dependent dependency := by
  cases dependency with
  | subFragment category =>
    simp only [offences, dependencyProblems, subFragmentProblems, values_operationalRows,
      OrderedMap.values, List.map_filterMap, List.filterMap_map]
    refine List.filterMap_congr fun row _ => ?_
    cases h : row.2.subFragment category with
    | none => simp [h]
    | some id =>
      simp only [Function.comp, h, Option.bind_some, Option.bind_eq_bind]
      split <;> rfl
  | coversEntities category | entitiesWithin category | zonesWithin category =>
    simp only [offences, dependencyProblems, map_ofRegistered, List.map_map]
    rfl

/-- The zones assigned by a fragment are those of its map. -/
theorem mem_zonePairs {fragment : Selector} {entity zone : EntityName} :
    (entity, zone) ∈ zonePairs store fragment ↔
      ∃ zones, (zoneMap store fragment).get? entity = some zones ∧ zone ∈ zones := by
  simp only [zonePairs_eq, List.mem_flatMap, List.mem_map, Prod.mk.injEq, Prod.exists,
    OrderedMap.mem_entries_iff]
  constructor
  · rintro ⟨_, zones, hget, _, hzone, rfl, rfl⟩
    exact ⟨zones, hget, hzone⟩
  · rintro ⟨zones, hget, hzone⟩
    exact ⟨entity, zones, hget, zone, hzone, rfl, rfl⟩

theorem mem_missingFrom {fragment other : Selector} {entity : EntityName} :
    entity ∈ missingFrom store fragment other ↔
      entity ∈ store.entities fragment ∧ entity ∉ store.entities other := by
  simp [missingFrom, OrderedSet.mem_elements, ← OrderedSet.contains_iff]

/-- The pairs whose zone is not one of another fragment. -/
theorem mem_outsidePairs {fragment other : Selector} {entity zone : EntityName} :
    (entity, zone) ∈ (zonePairs store fragment).filter (fun p => !(store.entities other).contains p.2) ↔
      ∃ zones, (zoneMap store fragment).get? entity = some zones ∧ zone ∈ zones ∧
        zone ∉ store.entities other := by
  simp only [List.mem_filter, mem_zonePairs, Bool.not_eq_true', ← Bool.not_eq_true,
    OrderedSet.contains_iff]
  constructor
  · rintro ⟨⟨zones, hget, hzone⟩, hout⟩
    exact ⟨zones, hget, hzone, hout⟩
  · rintro ⟨zones, hget, hzone, hout⟩
    exact ⟨⟨zones, hget, hzone⟩, hout⟩

/-- What is found offends against the dependency, and holds. -/
theorem holds_of_mem_offences {dependent : Selector} {dependency : Dependency} {offence : Offence}
    (h : offence ∈ offences store s dependent dependency) :
    offence.dependency = dependency ∧ (∀ other ∈ offence.other?, Registered store s other) ∧
      offence.Holds store dependent := by
  cases dependency with
  | subFragment category =>
    simp only [offences, List.mem_filterMap, Prod.exists, OrderedMap.mem_entries_iff,
      Option.bind_eq_some_iff, Option.ite_none_left_eq_some, Option.some.injEq] at h
    obtain ⟨row, chars, hrow, id, hid, hnone, rfl⟩ := h
    exact ⟨rfl, fun other h => absurd h (Option.not_mem_none other), chars, hrow, rfl, hid,
      Option.not_isSome_iff_eq_none.1 hnone⟩
  | coversEntities category | entitiesWithin category =>
    simp only [offences, mem_ofRegistered, List.mem_map, mem_missingFrom] at h
    obtain ⟨other, rfl, hother, entity, h, rfl⟩ := h
    exact ⟨rfl, fun _ e => Option.some.inj e ▸ hother, h⟩
  | zonesWithin category =>
    simp only [offences, mem_ofRegistered, List.mem_map, mem_outsidePairs, Prod.exists] at h
    obtain ⟨other, rfl, hother, entity, zone, h, rfl⟩ := h
    exact ⟨rfl, fun _ e => Option.some.inj e ▸ hother, h⟩

/-- The offences found are those which hold, if there is a fragment at the other end. -/
theorem mem_offences {dependent : Selector} {dependency : Dependency} {offence : Offence} :
    offence ∈ offences store s dependent dependency ↔
      offence.dependency = dependency ∧ (∀ other ∈ offence.other?, Registered store s other) ∧
        offence.Holds store dependent := by
  refine ⟨holds_of_mem_offences, ?_⟩
  rintro ⟨rfl, hother, h⟩
  cases offence with
  | missingFragment category row project id =>
    obtain ⟨chars, hrow, rfl, hid, hnone⟩ := h
    simp only [dependency, offences, List.mem_filterMap, Prod.exists, OrderedMap.mem_entries_iff]
    exact ⟨row, chars, hrow, by simp [hid, hnone]⟩
  | uncovered other entity | outside other entity =>
    exact mem_ofRegistered.2
      ⟨other, rfl, hother other rfl, List.mem_map_of_mem (mem_missingFrom.2 h)⟩
  | outsideZone other entity zone =>
    exact mem_ofRegistered.2
      ⟨other, rfl, hother other rfl, List.mem_map.2 ⟨(entity, zone), mem_outsidePairs.2 h, rfl⟩⟩

theorem pairwise_missingFrom (fragment other : Selector) :
    (missingFrom store fragment other).Pairwise fun a b =>
      [(store.entities fragment).elements.idxOf a] <
        [(store.entities fragment).elements.idxOf b] := by
  rw [missingFrom]
  exact ((increasing_idxOf (store.entities fragment).nodup).filter _).imp fun h => .rel h

theorem pairwise_zonePairs (fragment other : Selector) :
    (zonePairs store fragment).Pairwise fun p q =>
      (outsideZone other p.1 p.2).place store fragment <
        (outsideZone other q.1 q.2).place store fragment := by
  rw [zonePairs_eq, List.pairwise_flatMap]
  refine ⟨fun entry hentry => ?_,
    (zoneMap store fragment).pairwise_entries.imp fun hlt p hp q hq => ?_⟩
  · obtain ⟨entity, zones⟩ := entry
    rw [OrderedMap.mem_entries_iff] at hentry
    refine List.pairwise_map.2 ((increasing_idxOf zones.nodup).imp fun h => ?_)
    simp only [place, hentry, Option.getD_some]
    exact .cons (.rel h)
  · obtain ⟨_, -, rfl⟩ := List.mem_map.1 hp
    obtain ⟨_, -, rfl⟩ := List.mem_map.1 hq
    exact .rel hlt

/-- The offences found are in the order of their places. -/
theorem pairwise_offences (dependent : Selector) (dependency : Dependency) :
    (offences store s dependent dependency).Pairwise
      fun a b => a.place store dependent < b.place store dependent := by
  cases dependency with
  | subFragment category =>
    have hrows := (operationalRows store dependent).pairwise_entries
    refine List.pairwise_filterMap.2 (hrows.imp fun hlt o ho o' ho' => ?_)
    simp only [Option.bind_eq_some_iff, Option.ite_none_left_eq_some, Option.some.injEq] at ho ho'
    obtain ⟨_, -, -, rfl⟩ := ho
    obtain ⟨_, -, -, rfl⟩ := ho'
    exact .rel hlt
  | coversEntities category =>
    exact pairwise_ofRegistered fun other _ =>
      List.pairwise_map.2 (pairwise_missingFrom other dependent)
  | entitiesWithin category =>
    exact pairwise_ofRegistered fun other _ =>
      List.pairwise_map.2 (pairwise_missingFrom dependent other)
  | zonesWithin category =>
    exact pairwise_ofRegistered fun other _ =>
      List.pairwise_map.2 ((pairwise_zonePairs dependent other).filter _)

end CapacityExpansion.Integrity
