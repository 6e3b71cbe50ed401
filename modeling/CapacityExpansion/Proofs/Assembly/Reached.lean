import CapacityExpansion.Proofs.Assembly.Scoping

/-!
# What a scenario reaches

A store may hold much that a scenario has nothing to do with. The scenario
*reaches* the fragments which it selects, the project fragments which the
selected operational characteristics name, and the temporal tables. Each part of
a store has its *place*; stores which are the same at all the places reached
cannot be told apart by assembling the scenario.

So a fragment which is not used by a scenario can be added, changed or removed
without a change of what is assembled. The statuses of a scenario do not matter
either.

* `Place`, `SameAt`: the places of a store, and what is the same there;
* `Reaches`, `Uses`: the places reached, and the fragments they belong to;
* `report_congr`, `resolved_congr`: what is made of stores which are the same at
  the places reached;
* `assemble_reached`: assembly depends on the places reached only.
-/

namespace CapacityExpansion

namespace Assembly

open Integrity

/-- A fragment of a category, or of a project. -/
inductive AnyFragment where
  /-- A fragment which a scenario may select. -/
  | selectable (selector : Selector)
  /-- A fragment of a project, which operational characteristics may name. -/
  | ofProject (category : ProjectCategory) (project : EntityName) (id : Nat)
  deriving DecidableEq, Repr

/-- A place of a store, at which a part of it is kept. -/
inductive Place where
  /-- The entry of a fragment in its registry. -/
  | entry (selector : Selector)
  /-- The members of a fragment. -/
  | members (selector : Selector)
  /-- The zones which a fragment assigns. -/
  | zones (selector : Selector)
  /-- The operational characteristics of a fragment. -/
  | chars (id : Nat)
  /-- The entry of a project fragment in its registry. -/
  | projectEntry (category : ProjectCategory) (project : EntityName) (id : Nat)
  /-- The points of a heat rate curve of a project. -/
  | curve (project : EntityName) (id : Nat)
  /-- The temporal tables of a fragment. -/
  | tables (id : Nat)
  deriving DecidableEq, Repr

/-- The fragment which a place belongs to. -/
def Place.fragment : Place → AnyFragment
  | entry selector | members selector | zones selector => .selectable selector
  | chars id => .selectable ⟨.projectOperationalChars, id⟩
  | projectEntry category project id => .ofProject category project id
  | curve project id => .ofProject .heatRateCurves project id
  | tables id => .selectable ⟨.temporal, id⟩

/-- Two stores are the same at a place. For a project fragment it only counts whether it is
    registered. -/
def SameAt (A B : Store) : Place → Prop
  | .entry selector => A.fragment? selector = B.fragment? selector
  | .members selector => memberSet A selector = memberSet B selector
  | .zones selector => zoneMap A selector = zoneMap B selector
  | .chars id => operationalRows A ⟨.projectOperationalChars, id⟩ =
      operationalRows B ⟨.projectOperationalChars, id⟩
  | .projectEntry category project id => (A.projectFragment? category project id).isSome =
      (B.projectFragment? category project id).isSome
  | .curve project id => A.heatRateCurve project id = B.heatRateCurve project id
  | .tables id => temporalTables A id = temporalTables B id

variable (store : Store) (s : Scenario)

/-- The places which a scenario reaches: those of its selectors, and those named by the operational
    characteristics which it selects. -/
inductive Reaches : Place → Prop where
  | entry {selector : Selector} (h : s.selected selector.category = some selector.id) :
      Reaches (.entry selector)
  | members {selector : Selector} (h : s.selected selector.category = some selector.id) :
      Reaches (.members selector)
  | zones {selector : Selector} (h : s.selected selector.category = some selector.id) :
      Reaches (.zones selector)
  | chars {id : Nat} (h : s.selected .projectOperationalChars = some id) : Reaches (.chars id)
  | projectEntry {row : EntityName} {chars : OperationalChars} {category : ProjectCategory}
      {id : Nat} (hrow : charsOf store s row = some chars)
      (hid : chars.subFragment category = some id) :
      Reaches (.projectEntry category chars.project id)
  | curve {row : EntityName} {chars : OperationalChars} {id : Nat}
      (hrow : charsOf store s row = some chars) (hid : chars.heatRateCurve = some id) :
      Reaches (.curve row id)
  | tables {id : Nat} (h : s.selected .temporal = some id) : Reaches (.tables id)

/-- The fragments which a scenario uses. -/
inductive Uses : AnyFragment → Prop where
  /-- It selects them. -/
  | selects {selector : Selector} (h : s.selected selector.category = some selector.id) :
      Uses (.selectable selector)
  /-- The operational characteristics of a project name them. -/
  | names {row project : EntityName} {chars : OperationalChars} {category : ProjectCategory}
      {id : Nat} (hrow : charsOf store s row = some chars)
      (hid : chars.subFragment category = some id)
      (hproject : project = row ∨ project = chars.project) :
      Uses (.ofProject category project id)

variable {store s}

/-- What a scenario reaches belongs to the fragments which it uses. -/
theorem Reaches.uses {place : Place} (h : Reaches store s place) : Uses store s place.fragment := by
  rcases h with h | h | h | h | ⟨hrow, hid⟩ | ⟨hrow, hid⟩ | h
  · exact .selects h
  · exact .selects h
  · exact .selects h
  · exact .selects h
  · exact .names hrow hid (.inr rfl)
  · exact .names hrow hid (.inl rfl)
  · exact .selects h

/-- Only operational characteristics refer to project fragments. -/
theorem dependent_of_subFragment {x : CrossReference} (hx : x ∈ crossReferences)
    {category : ProjectCategory} (h : x.dependency = .subFragment category) :
    x.dependent = .projectOperationalChars := by
  have hall : ∀ x ∈ crossReferences, x.dependency.rule = "sub_fragment" →
      x.dependent = .projectOperationalChars := by decide
  refine hall x hx ?_
  rw [h]
  rfl

/-! ## Stores which are the same at the places reached -/

section Same

variable {A B : Store} (h : ∀ place, Reaches A s place → SameAt A B place)
include h

theorem fragment?_congr {selector : Selector}
    (hid : s.selected selector.category = some selector.id) :
    A.fragment? selector = B.fragment? selector := h _ (.entry hid)

theorem zoneMap_congr {selector : Selector}
    (hid : s.selected selector.category = some selector.id) :
    zoneMap A selector = zoneMap B selector := h _ (.zones hid)

theorem operationalRows_congr {selector : Selector}
    (hid : s.selected .projectOperationalChars = some selector.id) :
    operationalRows A selector = operationalRows B selector := h _ (.chars hid)

/-! ### The first phase -/

theorem registeredSelector?_congr (category : Category) :
    registeredSelector? A s category = registeredSelector? B s category := by
  rw [registeredSelector?, registeredSelector?, Scenario.selector?]
  cases hid : s.selected category with
  | none => rfl
  | some id =>
    have hentry : A.fragment? ⟨category, id⟩ = B.fragment? ⟨category, id⟩ := fragment?_congr h hid
    simp only [Option.map_some, Option.filter_some, hentry]

/-- The same is found in fragments which are registered if it is in those which are selected. -/
theorem ofRegistered_congr {α : Type} {category : Category} {f g : Selector → List α}
    (hfg : ∀ other, s.selected other.category = some other.id → f other = g other) :
    (registeredSelector? A s category).elim [] f = (registeredSelector? B s category).elim [] g := by
  rw [← registeredSelector?_congr h]
  cases hother : registeredSelector? A s category with
  | none => rfl
  | some other =>
    obtain ⟨-, hselected, -⟩ := registeredSelector?_eq_some_iff.1 hother
    exact hfg other hselected

/-- The selected fragments have the same entities. -/
theorem entities_congr {selector : Selector}
    (hid : s.selected selector.category = some selector.id) :
    A.entities selector = B.entities selector := by
  have hmembers : memberSet A selector = memberSet B selector := h _ (.members hid)
  rw [entities_eq, entities_eq, hmembers, zoneMap_congr h hid]
  split
  · next hcategory => rw [operationalRows_congr h (hcategory ▸ hid)]
  · rfl

theorem missingFrom_congr {fragment other : Selector}
    (hfragment : s.selected fragment.category = some fragment.id)
    (hother : s.selected other.category = some other.id) :
    missingFrom A fragment other = missingFrom B fragment other := by
  rw [missingFrom, missingFrom, entities_congr h hfragment, entities_congr h hother]

/-- The selected operational characteristics name the same project fragments which are missing. -/
theorem subFragmentProblems_congr {dependent : Selector}
    (hid : s.selected .projectOperationalChars = some dependent.id) (category : ProjectCategory) :
    subFragmentProblems A dependent category = subFragmentProblems B dependent category := by
  simp only [subFragmentProblems, values_operationalRows, ← operationalRows_congr h hid]
  refine List.filterMap_congr fun chars hmem => ?_
  obtain ⟨⟨row, _⟩, hentry, rfl⟩ := List.mem_map.1 hmem
  have hrow := charsOf_eq_some_iff.2 ⟨dependent.id, hid, OrderedMap.mem_entries_iff.1 hentry⟩
  cases hname : OperationalChars.subFragment _ category with
  | none => rfl
  | some named =>
    have hentry := h _ (.projectEntry hrow hname)
    rw [SameAt] at hentry
    simp only [Option.bind_eq_bind, Option.bind_some, hentry]

/-- The same is wrong with a selected fragment and what it depends on. -/
theorem dependencyProblems_congr {x : CrossReference} (hx : x ∈ crossReferences)
    {dependent : Selector} (hcategory : dependent.category = x.dependent)
    (hid : s.selected dependent.category = some dependent.id) :
    dependencyProblems A s dependent x.dependency =
      dependencyProblems B s dependent x.dependency := by
  cases hdependency : x.dependency with
  | subFragment category =>
    rw [hcategory, dependent_of_subFragment hx hdependency] at hid
    exact subFragmentProblems_congr h hid category
  | coversEntities category =>
    refine ofRegistered_congr h fun other hother => ?_
    rw [coverageProblems, coverageProblems, missingFrom_congr h hother hid]
  | entitiesWithin category =>
    refine ofRegistered_congr h fun other hother => ?_
    rw [entityProblems, entityProblems, missingFrom_congr h hid hother]
  | zonesWithin category =>
    refine ofRegistered_congr h fun other hother => ?_
    simp only [zoneProblems, zonePairs_eq, zoneMap_congr h hid, entities_congr h hother]

theorem referenceViolations_congr {x : CrossReference} (hx : x ∈ crossReferences) :
    referenceViolations A s x = referenceViolations B s x := by
  rw [referenceViolations, referenceViolations, ← registeredSelector?_congr h]
  cases hdependent : registeredSelector? A s x.dependent with
  | none => rfl
  | some dependent =>
    obtain ⟨hcategory, hid, -⟩ := registeredSelector?_eq_some_iff.1 hdependent
    simp only [dependencyProblems_congr h hx hcategory hid]

/-- The first phase reports the same. -/
theorem report_congr (r : Requirements) : report A s r = report B s r := by
  have hvalidate : Integrity.validate A s = Integrity.validate B s := by
    rw [Integrity.validate, Integrity.validate]
    refine congrArg Report.mk (congrArg₂ (· ++ ·) ?_ ?_)
    · refine List.filterMap_congr fun selector hmem => ?_
      rw [danglingSelector?, danglingSelector?, fragment?_congr h (Scenario.mem_selectors.1 hmem)]
    · refine List.flatMap_congr fun x hmem => referenceViolations_congr h ?_
      exact mem_sortOn.1 hmem
  rw [report, report, hvalidate]

/-! ### The second phase -/

theorem selectedEntities_congr (category : Category) :
    selectedEntities A s category = selectedEntities B s category := by
  rw [selectedEntities_eq, selectedEntities_eq]
  cases hid : s.selected category with
  | none => rfl
  | some id =>
    have hentities : A.entities ⟨category, id⟩ = B.entities ⟨category, id⟩ := entities_congr h hid
    rw [Option.elim_some, Option.elim_some, hentities]

theorem charsOf_congr (project : EntityName) : charsOf A s project = charsOf B s project := by
  rw [charsOf_eq, charsOf_eq]
  exact Option.bind_congr fun id hid => by rw [operationalRows_congr h hid]

theorem loadZonesOf_congr (project : EntityName) :
    loadZonesOf A s project = loadZonesOf B s project := by
  rw [loadZonesOf_eq, loadZonesOf_eq]
  rw [Option.bind_congr fun id hid => by rw [zoneMap_congr h hid]]

/-- The projects are described in the same way. -/
theorem describe_congr (H : Temporal.Hierarchy) (project : EntityName) :
    describe A s H project = describe B s H project := by
  have hcurve : curveOf A H project (charsOf A s project) =
      curveOf B H project (charsOf A s project) := by
    rw [curveOf_eq, curveOf_eq]
    cases hcurve : (charsOf A s project).bind OperationalChars.heatRateCurve with
    | none => rfl
    | some id =>
      obtain ⟨chars, hrow, hid⟩ := Option.bind_eq_some_iff.1 hcurve
      have hpoints : A.heatRateCurve project id = B.heatRateCurve project id := h _ (.curve hrow hid)
      rw [Option.elim_some, Option.elim_some, hpoints]
  rw [describe, describe, ← charsOf_congr h, ← loadZonesOf_congr h]
  simp only [hcurve]

/-- The scenario is resolved in the same way with a hierarchy. -/
theorem resolved_congr (H : Temporal.Hierarchy) (warnings : Report) :
    resolved A s H warnings = resolved B s H warnings := by
  have hfragments : selectedFragments A s = selectedFragments B s := by
    refine List.filterMap_congr fun selector hmem => ?_
    rw [fragment?_congr h (Scenario.mem_selectors.1 hmem)]
  have hdescribe : describe A s H = describe B s H := funext (describe_congr h H)
  simp only [resolved, hfragments, selectedEntities_congr h, hdescribe]

/-- Stores which are the same at the places reached give the same assembly. -/
theorem assemble_congr (r : Requirements) : assemble A s r = assemble B s r := by
  rw [assemble, assemble, report_congr h r]
  cases hid : s.selected .temporal with
  | none => rfl
  | some id =>
    have htables : (A.temporal.get? id).getD .empty = (B.temporal.get? id).getD .empty :=
      h _ (.tables hid)
    simp only [htables, resolved_congr h]

end Same

/-! ## Statuses -/

/-- What has become of a scenario plays no part in its assembly. -/
theorem assemble_statuses (store : Store) (s : Scenario) (r : Requirements)
    (validation : ValidationStatus) (run : RunStatus) :
    assemble store { s with validationStatus := validation, runStatus := run } r =
      assemble store s r := by
  have hrules : ∀ before features,
      r.ruleViolations { s with validationStatus := validation, runStatus := run } before features =
        r.ruleViolations s before features := by
    intro before features
    induction features generalizing before with
    | nil => rfl
    | cons feature rest ih =>
      simp only [Requirements.ruleViolations, ih]
      rfl
  have hreport : report store { s with validationStatus := validation, runStatus := run } r =
      report store s r := by
    simp only [report, Requirements.check, hrules]
    rfl
  have hresolved : resolved store { s with validationStatus := validation, runStatus := run } =
      resolved store s := rfl
  simp only [assemble, hreport, hresolved, stageViolation?]

/-! ## What is not used -/

/-- Registering a fragment leaves everything as it is but for its entry. -/
theorem sameAt_insertFragment (store : Store) {category : Category} {fragment : Fragment}
    {place : Place} (h : place ≠ .entry ⟨category, fragment.id⟩) :
    SameAt store (store.insertFragment category fragment) place := by
  cases place with
  | entry selector =>
    exact (store.fragment?_insertFragment_of_ne fun e => h (congrArg Place.entry e)).symm
  | _ => rfl

/-- Registering a fragment which is not selected, or registering it anew, does not change what is
    assembled. -/
theorem assemble_insertFragment (store : Store) {s : Scenario} (r : Requirements)
    {category : Category} {fragment : Fragment} (h : s.selected category ≠ some fragment.id) :
    assemble store s r = assemble (store.insertFragment category fragment) s r := by
  refine assemble_congr (fun place hplace => sameAt_insertFragment store fun e => ?_) r
  subst e
  cases hplace with
  | entry hid => exact h hid

/-- Assembly depends on the places which a scenario reaches and on nothing else of a store. What has
    become of the scenario plays no part, and neither do differences in fragments which the scenario
    does not use. -/
theorem assemble_reached (A B : Store) (s : Scenario) (r : Requirements) :
    ((∀ place, Reaches A s place → SameAt A B place) → assemble A s r = assemble B s r) ∧
    (∀ validation run, assemble A { s with validationStatus := validation, runStatus := run } r =
      assemble A s r) ∧
    ((∀ place, SameAt A B place ∨ ¬Uses A s place.fragment) → assemble A s r = assemble B s r) :=
  ⟨fun h => assemble_congr h r, assemble_statuses A s r, fun h =>
    assemble_congr (fun place hplace => (h place).resolve_right (not_not_intro hplace.uses)) r⟩

/-- The store of zones with another portfolio, a heat rate curve which no project names, and further
    temporal tables. -/
def extendedStore : Store :=
  { zoneStore.insertFragment .projectPortfolio ⟨2, "other", ""⟩ with
    members := zoneStore.members.insert ⟨.projectPortfolio, 2⟩ (.ofList ["coal"])
    heatRateCurves := zoneStore.heatRateCurves.insert ("gas_ct", 9) []
    temporal := zoneStore.temporal.insert 2 .empty }

/-- What is new in the store is not used by the scenario. -/
theorem sameAt_extendedStore (place : Place) :
    SameAt zoneStore extendedStore place ∨ ¬Uses zoneStore zoneScenario place.fragment := by
  have hportfolio : ¬Uses zoneStore zoneScenario (.selectable ⟨.projectPortfolio, 2⟩) := by
    rintro ⟨h⟩
    cases h
  rcases place with selector | selector | selector | id | ⟨category, project, id⟩ | ⟨project, id⟩ | id
  · by_cases hselector : selector = ⟨.projectPortfolio, 2⟩
    · exact .inr (hselector ▸ hportfolio)
    · exact .inl (zoneStore.fragment?_insertFragment_of_ne hselector).symm
  · by_cases hselector : selector = ⟨.projectPortfolio, 2⟩
    · exact .inr (hselector ▸ hportfolio)
    · refine .inl ?_
      rw [SameAt, memberSet, memberSet, extendedStore, OrderedMap.get?_insert_of_ne _ hselector]
  · exact .inl rfl
  · exact .inl rfl
  · exact .inl rfl
  · by_cases hcurve : (project, id) = ("gas_ct", 9)
    · refine .inr ?_
      obtain ⟨rfl, rfl⟩ := Prod.mk.inj hcurve
      have hnames : ∀ row ∈ (operationalRows zoneStore ⟨.projectOperationalChars, 1⟩).entries,
          row.2.heatRateCurve ≠ some 9 := by decide
      rintro (_ | ⟨hrow, hid, -⟩)
      obtain ⟨_, hselected, hrow⟩ := charsOf_eq_some_iff.1 hrow
      cases hselected
      exact hnames _ (OrderedMap.mem_entries_iff.2 hrow) hid
    · refine .inl ?_
      rw [SameAt, Store.heatRateCurve, Store.heatRateCurve, extendedStore,
        OrderedMap.get?_insert_of_ne _ hcurve]
  · by_cases hid : id = 2
    · refine .inr ?_
      rintro ⟨h⟩
      cases hid
      cases h
    · refine .inl ?_
      rw [SameAt, temporalTables, temporalTables, extendedStore, OrderedMap.get?_insert_of_ne _ hid]

/-- The scenario does not tell the two stores apart, although they are not the same. -/
theorem assemble_reached_extended :
    ¬SameAt zoneStore extendedStore (.members ⟨.projectPortfolio, 2⟩) ∧
    (∀ place, Reaches zoneStore zoneScenario place → SameAt zoneStore extendedStore place) ∧
    (∀ place, SameAt zoneStore extendedStore place ∨ ¬Uses zoneStore zoneScenario place.fragment) ∧
    assemble zoneStore zoneScenario temporalOnly =
      assemble extendedStore { zoneScenario with runStatus := .complete } temporalOnly := by
  have hsame : ∀ place, Reaches zoneStore zoneScenario place →
      SameAt zoneStore extendedStore place := fun place hplace =>
    (sameAt_extendedStore place).resolve_right (not_not_intro hplace.uses)
  obtain ⟨hreached, -, -⟩ := assemble_reached zoneStore extendedStore zoneScenario temporalOnly
  obtain ⟨-, hstatus, -⟩ := assemble_reached extendedStore zoneStore zoneScenario temporalOnly
  refine ⟨?_, hsame, sameAt_extendedStore, (hreached hsame).trans (hstatus _ _).symm⟩
  unfold SameAt
  decide

end Assembly

end CapacityExpansion
