import CapacityExpansion.Proofs.Assembly.Scoping
import CapacityExpansion.Scenario.View

/-!
# The selected fragments

A scenario selects fragments by their identifiers. Three times these are looked
up in the registries of the store: for the view, which shows names; by the first
phase of assembly, which reports what is not there; and for the assembled
scenario, which leaves out what is not there. All of them find the same
(`found?`). Since nothing is reported about an assembled scenario, nothing is
left out of it, and its fragments are what the view shows.

* `found?`, `selectedFragments_eq`, `rows_ofScenario`: what is looked up;
* `Selection`: the fragments of an assembled scenario;
* `assemble_selection`: an assembled scenario has all fragments it selects, and
  the view misses what is reported.
-/

namespace CapacityExpansion

/-- What a view shows of a selected fragment. -/
def ViewRow.shown (row : ViewRow) : Category × Option Nat × Option String :=
  (row.category, row.selected, row.name)

namespace Assembly

open Integrity (Finding danglingSelector?)

variable (store : Store) (s : Scenario)

/-- The registered fragment which a scenario selects for a category. -/
def found? (category : Category) : Option Fragment := (s.selector? category).bind store.fragment?

/-- What the view of a scenario should show of one of its fragments. -/
def shownFragment (f : SelectedFragment) : Category × Option Nat × Option String :=
  (f.category, some f.fragment.id, some f.fragment.name)

/-- The fragments of a scenario are those which are selected, as they are registered. -/
structure Selection (r : Requirements) (scenario : ResolvedScenario) : Prop where
  /-- There is one for each category for which one is selected, in category order. -/
  categories : scenario.fragments.map SelectedFragment.category =
    Category.all.filter fun category => (s.selected category).isSome
  selected : ∀ f ∈ scenario.fragments, s.selected f.category = some f.fragment.id
  registered : ∀ f ∈ scenario.fragments,
    store.fragment? ⟨f.category, f.fragment.id⟩ = some f.fragment
  /-- Nothing which is required is missing. -/
  required : ∀ category ∈ (r.required s.enabled).elements,
    ∃ f ∈ scenario.fragments, f.category = category
  isSome_fragment?_iff : ∀ category,
    (scenario.fragment? category).isSome ↔ (s.selected category).isSome
  /-- The view shows the same fragments. -/
  view : scenario.fragments.map shownFragment =
    (ScenarioView.ofScenario store s).selectedRows.map ViewRow.shown
  named : ∀ row ∈ (ScenarioView.ofScenario store s).selectedRows, row.name.isSome

variable {store s} {r : Requirements} {scenario : ResolvedScenario} {category : Category} {id : Nat}

/-! ## What is looked up -/

theorem found?_of_selected (hid : s.selected category = some id) :
    found? store s category = store.fragment? ⟨category, id⟩ := by
  rw [found?, Scenario.selector?, hid, Option.map_some, Option.bind_some]

theorem found?_eq_some_iff {fragment : Fragment} : found? store s category = some fragment ↔
    ∃ id, s.selected category = some id ∧ store.fragment? ⟨category, id⟩ = some fragment := by
  rw [found?, Scenario.selector?, Option.bind_eq_some_iff]
  simp only [Option.map_eq_some_iff]
  constructor
  · rintro ⟨_, ⟨id, hid, rfl⟩, hfragment⟩
    exact ⟨id, hid, hfragment⟩
  · rintro ⟨id, hid, hfragment⟩
    exact ⟨_, ⟨id, hid, rfl⟩, hfragment⟩

/-- The fragments of a scenario are those found, in category order. -/
theorem selectedFragments_eq : selectedFragments store s =
    Category.all.filterMap fun c => (found? store s c).map (SelectedFragment.mk c) := by
  rw [selectedFragments, Scenario.selectors, List.filterMap_filterMap]
  refine List.filterMap_congr fun c _ => ?_
  rw [found?, Scenario.selector?]
  cases s.selected c <;> rfl

theorem mem_selectedFragments {f : SelectedFragment} :
    f ∈ selectedFragments store s ↔ found? store s f.category = some f.fragment := by
  rw [selectedFragments_eq, List.mem_filterMap]
  simp only [Option.map_eq_some_iff]
  constructor
  · rintro ⟨c, -, fragment, hfound, rfl⟩
    exact hfound
  · intro hfound
    exact ⟨f.category, Category.mem_all _, f.fragment, hfound, rfl⟩

/-- They are of different categories, those for which a fragment is found. -/
theorem map_category_selectedFragments : (selectedFragments store s).map SelectedFragment.category =
    Category.all.filter fun c => (found? store s c).isSome := by
  rw [selectedFragments_eq, List.map_filterMap, ← List.filterMap_eq_filter]
  refine List.filterMap_congr fun c _ => ?_
  cases hfound : found? store s c <;> simp [Option.guard, hfound]

/-- A scenario which is assembled has the fragment which is found for a category. -/
theorem fragment?_resolved {h : Temporal.Hierarchy} {warnings : Report} :
    (resolved store s h warnings).fragment? category = found? store s category := by
  have hnodup : ((selectedFragments store s).map SelectedFragment.category).Nodup := by
    rw [map_category_selectedFragments]
    exact Category.nodup_all.filter _
  refine Option.ext fun fragment => ?_
  rw [ResolvedScenario.fragment?, Option.map_eq_some_iff]
  simp only [resolved, find?_key_eq_some_iff hnodup, mem_selectedFragments]
  constructor
  · rintro ⟨f, ⟨hfound, rfl⟩, rfl⟩
    exact hfound
  · intro hfound
    exact ⟨⟨category, fragment⟩, ⟨hfound, rfl⟩, rfl⟩

/-! ## What the view shows -/

/-- The view shows the name of the fragment which is found. -/
theorem rows_ofScenario : (ScenarioView.ofScenario store s).rows = Category.all.map fun c =>
    { category := c, selected := s.selected c, name := (found? store s c).map Fragment.name } := rfl

theorem mem_rows_ofScenario {row : ViewRow} : row ∈ (ScenarioView.ofScenario store s).rows ↔
    row.selected = s.selected row.category ∧
      row.name = (found? store s row.category).map Fragment.name := by
  obtain ⟨category, selected, name⟩ := row
  simp only [rows_ofScenario, List.mem_map, ViewRow.mk.injEq]
  constructor
  · rintro ⟨c, -, rfl, rfl, rfl⟩
    exact ⟨rfl, rfl⟩
  · rintro ⟨rfl, rfl⟩
    exact ⟨category, Category.mem_all _, rfl, rfl, rfl⟩

theorem isSome_danglingSelector?_iff {selector : Selector} :
    (danglingSelector? store selector).isSome ↔ store.fragment? selector = none := by
  rw [danglingSelector?]
  split
  · next hfragment => simp [hfragment]
  · next hfragment => simp [hfragment]

/-- A view shows an identifier without a name if and only if it is selected and reported. -/
theorem unnamed_iff {row : ViewRow} (hrow : row ∈ (ScenarioView.ofScenario store s).rows) :
    row.selected = some id ∧ row.name = none ↔
      s.selected row.category = some id ∧
        (danglingSelector? store ⟨row.category, id⟩).isSome := by
  obtain ⟨hselected, hname⟩ := mem_rows_ofScenario.1 hrow
  rw [hselected, hname, Option.map_eq_none_iff, isSome_danglingSelector?_iff]
  exact and_congr_right fun hid => by rw [found?_of_selected hid]

/-! ## Scenarios which are assembled -/

section NothingFound

variable (hnone : ∀ finding : Finding, ¬finding.Holds store s)
include hnone

/-- What is selected is found if nothing is reported. -/
theorem isSome_found?_iff : (found? store s category).isSome ↔ (s.selected category).isSome := by
  constructor
  · intro hfound
    obtain ⟨fragment, hfound⟩ := Option.isSome_iff_exists.1 hfound
    obtain ⟨id, hid, -⟩ := found?_eq_some_iff.1 hfound
    exact Option.isSome_of_eq_some hid
  · intro hselected
    obtain ⟨id, hid⟩ := Option.isSome_iff_exists.1 hselected
    rw [found?_of_selected hid]
    exact (registered_of_selected hnone hid).2

/-- A view shows the fragments which are found, and no others. -/
theorem map_shownFragment_selectedFragments (hkeyed : store.KeyedById) :
    (selectedFragments store s).map shownFragment =
      (ScenarioView.ofScenario store s).selectedRows.map ViewRow.shown := by
  rw [ScenarioView.selectedRows, rows_ofScenario, List.filter_map, List.map_map,
    selectedFragments_eq, List.map_filterMap, ← List.filterMap_eq_map, List.filterMap_filter]
  -- Now both sides go through all categories, and it is enough to compare them at each one.
  refine List.filterMap_congr fun c _ => ?_
  cases hid : s.selected c with
  | none => simp [found?, Scenario.selector?, hid]
  | some id =>
    obtain ⟨fragment, hfragment⟩ :=
      Option.isSome_iff_exists.1 (registered_of_selected hnone hid).2
    have hfound := (found?_of_selected hid).trans hfragment
    simp [shownFragment, ViewRow.shown, hid, hfound, hkeyed.id_eq hfragment]

/-- No row of the view with a selected fragment misses its name. -/
theorem isSome_name_of_mem_selectedRows {row : ViewRow}
    (hrow : row ∈ (ScenarioView.ofScenario store s).selectedRows) : row.name.isSome := by
  obtain ⟨hrow, hselected⟩ := List.mem_filter.1 hrow
  obtain ⟨hid, hname⟩ := mem_rows_ofScenario.1 hrow
  rw [hname, Option.isSome_map, isSome_found?_iff hnone, ← hid]
  exact hselected

end NothingFound

/-- An assembled scenario has all the fragments which are selected. -/
theorem selection_of_ok (hkeyed : store.KeyedById)
    (hok : (assemble store s r).outcome = .ok scenario) : Selection store s r scenario := by
  have hnone := not_holds_of_ok hok
  obtain ⟨hR, h, -, rfl⟩ := exists_ready_of_ok hok
  -- The report has no errors, in particular none about a required category.
  have hrequired : ∀ c ∈ (r.required s.enabled).elements, (s.selected c).isSome := by
    rw [report, Report.hasErrors_append, Bool.or_eq_false_iff] at hR
    exact Requirements.hasErrors_check_eq_false_iff.1 hR.2
  have hcategories : (selectedFragments store s).map SelectedFragment.category =
      Category.all.filter fun c => (s.selected c).isSome := by
    rw [map_category_selectedFragments]
    exact List.filter_congr fun c _ => Bool.eq_iff_iff.2 (isSome_found?_iff hnone)
  have hmem : ∀ f ∈ selectedFragments store s, s.selected f.category = some f.fragment.id ∧
      store.fragment? ⟨f.category, f.fragment.id⟩ = some f.fragment := by
    intro f hf
    -- What is found under an identifier has it, so the fragment says what is selected.
    obtain ⟨id, hid, hfragment⟩ := found?_eq_some_iff.1 (mem_selectedFragments.1 hf)
    obtain rfl : f.fragment.id = id := hkeyed.id_eq hfragment
    exact ⟨hid, hfragment⟩
  exact {
    categories := hcategories
    selected := fun f hf => (hmem f hf).1
    registered := fun f hf => (hmem f hf).2
    required := fun c hc => by
      have hselected : c ∈ (selectedFragments store s).map SelectedFragment.category := by
        rw [hcategories, List.mem_filter]
        exact ⟨Category.mem_all c, hrequired c hc⟩
      exact List.mem_map.1 hselected
    isSome_fragment?_iff := fun c => by rw [fragment?_resolved, isSome_found?_iff hnone]
    view := map_shownFragment_selectedFragments hnone hkeyed
    named := fun _ => isSome_name_of_mem_selectedRows hnone }

/-- An assembled scenario has the fragments it selects, and these are what the view shows. A view
    can be had of every scenario; it has a row for each category, and misses the names of the
    fragments which are reported as not being there. -/
theorem assemble_selection (store : Store) (s : Scenario) :
    (store.KeyedById → ∀ r scenario, (assemble store s r).outcome = .ok scenario →
      Selection store s r scenario) ∧
    (ScenarioView.ofScenario store s).rows.map ViewRow.category = Category.all ∧
    ∀ row ∈ (ScenarioView.ofScenario store s).rows, row.selected = s.selected row.category ∧
      ∀ id, row.selected = some id ∧ row.name = none ↔
        ⟨row.category, id⟩ ∈ s.selectors ∧
          (danglingSelector? store ⟨row.category, id⟩).isSome := by
  refine ⟨fun hkeyed _ _ => selection_of_ok hkeyed, ?_, fun row hrow => ?_⟩
  · rw [rows_ofScenario, List.map_map]
    exact List.map_id _
  · refine ⟨(mem_rows_ofScenario.1 hrow).1, fun id => ?_⟩
    rw [unnamed_iff hrow, Scenario.mem_selectors]

/-- The scenario of two projects has all of its fragments. A scenario which selects tables that are
    not there is not assembled, but its view says which are missing. -/
theorem assemble_selection_zones :
    (∃ scenario, (assemble zoneStore zoneScenario temporalOnly).outcome = .ok scenario ∧
      Selection zoneStore zoneScenario temporalOnly scenario ∧
      scenario.fragments.map SelectedFragment.category = [.temporal, .loadZones, .projectPortfolio,
        .projectOperationalChars, .projectLoadZones]) ∧
    ⟨.temporal, some 3, none⟩ ∈ (ScenarioView.ofScenario daysStore (daysScenario 3)).rows ∧
      (danglingSelector? daysStore ⟨.temporal, 3⟩).isSome := by
  constructor
  · have hkeyed : zoneStore.KeyedById := by
      unfold Store.KeyedById FragmentsKeyed
      decide
    have hisOk : (assemble zoneStore zoneScenario temporalOnly).outcome.isOk := by decide +kernel
    obtain ⟨scenario, hok⟩ := exists_of_isOk hisOk
    have hselection :=
      (assemble_selection zoneStore zoneScenario).1 hkeyed temporalOnly scenario hok
    exact ⟨scenario, hok, hselection, hselection.categories.trans (by decide)⟩
  · have hrow : ⟨.temporal, some 3, none⟩ ∈
        (ScenarioView.ofScenario daysStore (daysScenario 3)).rows := by decide
    obtain ⟨-, hunnamed⟩ := (assemble_selection daysStore (daysScenario 3)).2.2 _ hrow
    exact ⟨hrow, ((hunnamed 3).1 ⟨rfl, rfl⟩).2⟩

end Assembly

end CapacityExpansion
