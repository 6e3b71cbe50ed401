import CapacityExpansion.Proofs.Data.Increasing
import CapacityExpansion.Proofs.Requirements.Coherence
import CapacityExpansion.Requirements.Check

/-!
# What a scenario is advised to select

The check of the requirements gives two kinds of advice. An error says that a
required category is missing, a warning that a selector is ignored because the
feature it belongs to is switched off.

The errors are about the required categories for which nothing is selected, in
the order in which they are first required, each once however many rules require
it. This does not depend on how the check remembers what it has reported: it may
as well go through the rules in *one pass*, with the categories reported so far.

The warnings are about the selected categories which are exclusive to a feature
that is off. For requirements which are coherent the two kinds never contradict
each other: no category is the subject of two violations, and none which is
required is ignored.

* `onePass`, `violations_check`: the check as one pass;
* `subject_errors_check`, `warnings_check`: the errors and the warnings;
* `mem_ignored`, `pairwise_ignored`: the selectors which are ignored;
* `check_agrees`: the check asks for what is required;
* `check_consistent`: what it says is consistent.
-/

namespace CapacityExpansion.Requirements

variable (r : Requirements) (s : Scenario)

/-! ## One pass -/

/-- The problems of the categories for which nothing is selected, except for those which have been
    reported, and the categories reported by then. -/
def reportMissing (problem : Category → Violation) : (reported : OrderedSet Category) →
    List Category → List Violation × OrderedSet Category
  | reported, [] => ([], reported)
  | reported, category :: rest =>
    if (s.selected category).isNone ∧ category ∉ reported.elements then
      let result := reportMissing problem (reported.insert category) rest
      (problem category :: result.1, result.2)
    else reportMissing problem reported rest

/-- The violations of the rules of some features, given the categories reported so far. -/
def reportRules : (reported : OrderedSet Category) → List Feature → List Violation
  | _, [] => []
  | reported, feature :: rest =>
    if s.features feature then
      let result := reportMissing s (missingFor feature) reported (r.rule feature).required
      result.1 ++ reportRules result.2 rest
    else
      ((r.rule feature).exclusive.filterMap s.selector?).map (ignoredSelector feature) ++
        reportRules reported rest

/-- The violations found in one pass over what every scenario must select and over the rules of the
    features. -/
def onePass : List Violation :=
  let result := reportMissing s missingAlways ∅ r.always
  result.1 ++ reportRules r s result.2 Feature.all

variable {r s}

theorem mem_unselected {categories : List Category} {category : Category} :
    category ∈ unselected s categories ↔ category ∈ categories ∧ s.selected category = none := by
  simp [unselected]

theorem unselected_append (l m : List Category) :
    unselected s (l ++ m) = unselected s l ++ unselected s m := List.filter_append ..

/-- What the categories reported so far are: those of the categories demanded before for which
    nothing is selected. -/
def ReportedOf (s : Scenario) (before reported : OrderedSet Category) : Prop :=
  reported.elements = unselected s before.elements

/-- A demand for a category which is not reported leaves the reported ones as they are. -/
theorem ReportedOf.insert_of_not {before reported : OrderedSet Category} {category : Category}
    (h : ReportedOf s before reported)
    (hnot : ¬((s.selected category).isNone ∧ category ∉ reported.elements)) :
    ReportedOf s (before.insert category) reported ∧
      unselected s ((before.insert category).elements.drop before.elements.length) = [] := by
  rw [ReportedOf] at h
  rw [h, mem_unselected, Option.isNone_iff_eq_none] at hnot
  by_cases hbefore : category ∈ before.elements
  · simp [ReportedOf, hbefore, h, unselected]
  · have hselected : (s.selected category).isNone = false := by
      rw [Option.isNone_eq_false_iff, Option.isSome_iff_ne_none]
      exact fun hnone => hnot ⟨hnone, fun hmem => hbefore hmem.1⟩
    simp [ReportedOf, hbefore, h, unselected, hselected]

/-- A demand for a category which is reported adds it to the reported ones. -/
theorem ReportedOf.insert_of {before reported : OrderedSet Category} {category : Category}
    (h : ReportedOf s before reported)
    (hnew : (s.selected category).isNone ∧ category ∉ reported.elements) :
    ReportedOf s (before.insert category) (reported.insert category) ∧
      unselected s ((before.insert category).elements.drop before.elements.length) = [category] := by
  obtain ⟨hnone, hnot⟩ := hnew
  have hbefore : category ∉ before.elements := by
    intro hmem
    rw [ReportedOf] at h
    exact hnot (h ▸ mem_unselected.2 ⟨hmem, Option.isNone_iff_eq_none.1 hnone⟩)
  rw [ReportedOf] at h
  simp [ReportedOf, hbefore, h, unselected, hnone]

/-- Going through a list of categories reports those which the list adds to the demanded ones, if
    nothing is selected for them. -/
theorem reportMissing_eq (problem : Category → Violation) {before reported : OrderedSet Category}
    (h : ReportedOf s before reported) (categories : List Category) :
    (reportMissing s problem reported categories).1 =
        (unselected s ((before.insertAll categories).elements.drop before.elements.length)).map
          problem ∧
      ReportedOf s (before.insertAll categories)
        (reportMissing s problem reported categories).2 := by
  induction categories generalizing before reported with
  | nil => simpa [reportMissing, OrderedSet.insertAll, unselected] using h
  | cons category rest ih =>
    -- What the list adds is what its first category adds and then what the rest does.
    have hdrop := before.drop_insertAll_insertAll [category] rest
    rw [← OrderedSet.insertAll_append, List.singleton_append] at hdrop
    rw [hdrop, unselected_append, List.map_append, reportMissing]
    split
    · next hnew =>
      obtain ⟨hreported, hadded⟩ := h.insert_of hnew
      obtain ⟨hfound, hafter⟩ := ih hreported
      refine ⟨?_, hafter⟩
      change problem category :: _ =
        (unselected s ((before.insert category).elements.drop _)).map problem ++ _
      rw [hadded, hfound]
      rfl
    · next hnot =>
      obtain ⟨hreported, hadded⟩ := h.insert_of_not hnot
      obtain ⟨hfound, hafter⟩ := ih hreported
      refine ⟨?_, hafter⟩
      change _ = (unselected s ((before.insert category).elements.drop _)).map problem ++ _
      rw [hadded, hfound]
      rfl

theorem ruleViolations_eq_reportRules {before reported : OrderedSet Category}
    (h : ReportedOf s before reported) (features : List Feature) :
    r.ruleViolations s before features = reportRules r s reported features := by
  induction features generalizing before reported with
  | nil => rfl
  | cons feature rest ih =>
    rw [ruleViolations, reportRules]
    split
    · obtain ⟨hfound, hafter⟩ := reportMissing_eq (missingFor feature) h (r.rule feature).required
      simp only [hfound, ih hafter]
    · rw [ih h]

/-- The check finds what one pass finds. -/
theorem violations_check (r : Requirements) (s : Scenario) :
    (r.check s).violations = onePass r s := by
  have hempty : ReportedOf s ∅ ∅ := rfl
  obtain ⟨hfound, hafter⟩ := reportMissing_eq missingAlways hempty r.always
  simp only [onePass, hfound, ← ruleViolations_eq_reportRules hafter]
  rfl

/-! ## Errors -/

theorem filter_map_of_forall {α : Type} {p : Violation → Bool} {f : α → Violation}
    (h : ∀ a, p (f a) = true) (l : List α) : (l.map f).filter p = l.map f := by
  rw [List.filter_eq_self]
  intro v hv
  obtain ⟨a, -, rfl⟩ := List.mem_map.1 hv
  exact h a

theorem filter_map_of_forall_not {α : Type} {p : Violation → Bool} {f : α → Violation}
    (h : ∀ a, p (f a) = false) (l : List α) : (l.map f).filter p = [] := by
  rw [List.filter_eq_nil_iff]
  intro v hv
  obtain ⟨a, -, rfl⟩ := List.mem_map.1 hv
  rw [h a]
  exact Bool.false_ne_true

/-- The errors of some rules are about the categories which these rules add to the required ones, if
    nothing is selected for them. -/
theorem subject_errors_ruleViolations (before : OrderedSet Category) (features : List Feature) :
    ((r.ruleViolations s before features).filter Violation.isError).map Violation.subject =
      (unselected s ((before.insertAll ((features.filter s.features).flatMap fun f =>
        (r.rule f).required)).elements.drop before.elements.length)).map Subject.category := by
  induction features generalizing before with
  | nil => simp [ruleViolations, OrderedSet.insertAll, unselected]
  | cons feature rest ih =>
    rw [ruleViolations]
    split
    · next hon =>
      rw [List.filter_cons_of_pos hon, List.flatMap_cons, OrderedSet.insertAll_append,
        OrderedSet.drop_insertAll_insertAll, unselected_append, List.filter_append, List.map_append,
        List.map_append, filter_map_of_forall fun _ => rfl, ih, List.map_map]
      rfl
    · next hoff =>
      rw [List.filter_cons_of_neg hoff, List.filter_append, filter_map_of_forall_not fun _ => rfl,
        List.nil_append, ih]

/-- The errors of the check are about the required categories for which nothing is selected. -/
theorem subject_errors_check (r : Requirements) (s : Scenario) :
    (r.check s).errors.map Violation.subject =
      (unselected s (r.required s.enabled).elements).map Subject.category := by
  obtain ⟨t, ht⟩ := (OrderedSet.ofList r.always).prefix_insertAll
    (s.enabled.flatMap fun f => (r.rule f).required)
  have hrules := subject_errors_ruleViolations (r := r) (s := s) (.ofList r.always) Feature.all
  rw [← Scenario.enabled, ← ht, List.drop_left] at hrules
  rw [Report.errors, check, List.filter_append, List.map_append, hrules,
    filter_map_of_forall fun _ => rfl, required, ← ht, unselected_append, List.map_append,
    List.map_map]
  rfl

/-! ## Warnings -/

variable (r s) in
/-- The selectors which are of no use, each with the feature it belongs to. -/
def ignored : List (Feature × Selector) :=
  (Feature.all.filter fun f => !s.features f).flatMap fun f =>
    ((r.rule f).exclusive.filterMap s.selector?).map (f, ·)

variable (r) in
/-- The rank of an ignored selector: by the feature, and by the place in its rule. -/
def ignoredRank (p : Feature × Selector) : List Nat :=
  [p.1.position, (r.rule p.1).exclusive.idxOf p.2.category]

theorem warnings_ruleViolations (before : OrderedSet Category) (features : List Feature) :
    ((r.ruleViolations s before features).filter fun v => !v.isError) =
      (features.filter fun f => !s.features f).flatMap fun f =>
        ((r.rule f).exclusive.filterMap s.selector?).map (ignoredSelector f) := by
  induction features generalizing before with
  | nil => rfl
  | cons feature rest ih =>
    rw [ruleViolations]
    split
    · next hon =>
      rw [List.filter_cons_of_neg (p := fun f => !s.features f) (by simpa using hon),
        List.filter_append, filter_map_of_forall_not fun _ => rfl, List.nil_append, ih]
    · next hoff =>
      rw [List.filter_cons_of_pos (p := fun f => !s.features f) (by simpa using hoff),
        List.flatMap_cons, List.filter_append, filter_map_of_forall fun _ => rfl, ih]

/-- The warnings of the check are about the selectors which are ignored. -/
theorem warnings_check (r : Requirements) (s : Scenario) :
    (r.check s).warnings = (ignored r s).map fun p => ignoredSelector p.1 p.2 := by
  rw [Report.warnings, check, List.filter_append, filter_map_of_forall_not fun _ => rfl,
    warnings_ruleViolations, List.nil_append, ignored, List.map_flatMap]
  simp only [List.map_map]
  rfl

theorem mem_ignored {p : Feature × Selector} :
    p ∈ ignored r s ↔ s.features p.1 = false ∧ p.2.category ∈ (r.rule p.1).exclusive ∧
      s.selected p.2.category = some p.2.id := by
  obtain ⟨f, category, id⟩ := p
  simp only [ignored, List.mem_flatMap, List.mem_filter, Feature.mem_all, true_and, List.mem_map,
    List.mem_filterMap, Scenario.selector?, Option.map_eq_some_iff, Prod.mk.injEq,
    Bool.not_eq_true']
  constructor
  · rintro ⟨_, hoff, _, ⟨_, hmem, _, hid, rfl⟩, rfl, e⟩
    cases e
    exact ⟨hoff, hmem, hid⟩
  · rintro ⟨hoff, hmem, hid⟩
    exact ⟨f, hoff, ⟨category, id⟩, ⟨category, hmem, id, hid, rfl⟩, rfl, rfl⟩

/-- The ignored selectors are in the order of their ranks. -/
theorem pairwise_ignored (h : r.Coherent) :
    (ignored r s).Pairwise fun p q => ignoredRank r p < ignoredRank r q := by
  rw [ignored, List.pairwise_flatMap]
  constructor
  · intro f _
    refine List.pairwise_map.2 (List.pairwise_filterMap.2 ?_)
    refine (increasing_idxOf (h.nodup_exclusive f)).imp fun hlt a ha b hb => ?_
    obtain ⟨_, -, rfl⟩ := Option.map_eq_some_iff.1 ha
    obtain ⟨_, -, rfl⟩ := Option.map_eq_some_iff.1 hb
    exact .cons (.rel hlt)
  · refine ((increasing_idxOf Feature.nodup_all).filter _).imp fun hlt p hp q hq => ?_
    obtain ⟨_, -, rfl⟩ := List.mem_map.1 hp
    obtain ⟨_, -, rfl⟩ := List.mem_map.1 hq
    exact .rel hlt

/-! ## All of the advice -/

/-- What is found wrong with the features and the selectors is of one kind. -/
theorem kind_of_mem_ruleViolations {before : OrderedSet Category} {features : List Feature}
    {v : Violation} (hv : v ∈ r.ruleViolations s before features) :
    v.kind = .featureSelectorIncoherence := by
  induction features generalizing before with
  | nil => exact absurd hv List.not_mem_nil
  | cons feature rest ih =>
    rw [ruleViolations] at hv
    split at hv
    all_goals
      rcases List.mem_append.1 hv with hv | hv
      · obtain ⟨_, -, rfl⟩ := List.mem_map.1 hv
        rfl
      · exact ih hv

theorem kind_of_mem_check {v : Violation} (hv : v ∈ (r.check s).violations) :
    v.kind = .featureSelectorIncoherence := by
  rcases List.mem_append.1 hv with hv | hv
  · obtain ⟨_, -, rfl⟩ := List.mem_map.1 hv
    rfl
  · exact kind_of_mem_ruleViolations hv

/-- There is no error if and only if every required category is selected. -/
theorem hasErrors_check_eq_false_iff : (r.check s).hasErrors = false ↔
    ∀ category ∈ (r.required s.enabled).elements, (s.selected category).isSome := by
  have hnil : (r.check s).errors = [] ↔ unselected s (r.required s.enabled).elements = [] := by
    rw [← List.map_eq_nil_iff (f := Violation.subject), subject_errors_check, List.map_eq_nil_iff]
  rw [← Bool.not_eq_true, Report.hasErrors_iff, not_not, hnil, unselected, List.filter_eq_nil_iff]
  simp only [Bool.not_eq_true, Option.isNone_eq_false_iff]

/-- No category is missed twice. -/
theorem nodup_subject_errors_check : ((r.check s).errors.map Violation.subject).Nodup := by
  rw [subject_errors_check]
  exact ((r.required s.enabled).nodup.filter _).map fun _ _ e => Subject.category.inj e

/-- The check of requirements finds what one pass over the rules finds. Its errors are about the
    required categories for which nothing is selected, each once and in the order in which they are
    first required; its warnings are about the selectors which are ignored, each once, by feature and
    in the order of the feature's rule. So there is no error if and only if all that is required is
    selected. -/
theorem check_agrees (hr : Loaded r) (s : Scenario) :
    (r.check s).violations = onePass r s ∧
    (r.check s).errors.map Violation.subject =
      (unselected s (r.required s.enabled).elements).map Subject.category ∧
    ((r.check s).errors.map Violation.subject).Nodup ∧
    (∃ selectors : List (Feature × Selector),
      (r.check s).warnings = selectors.map (fun p => ignoredSelector p.1 p.2) ∧
      (∀ p, p ∈ selectors ↔ s.features p.1 = false ∧ p.2.category ∈ (r.rule p.1).exclusive ∧
        s.selected p.2.category = some p.2.id) ∧
      selectors.Pairwise fun p q => ignoredRank r p < ignoredRank r q) ∧
    (∀ v ∈ (r.check s).violations, v.kind = .featureSelectorIncoherence) ∧
    ((r.check s).hasErrors = false ↔
      ∀ category ∈ (r.required s.enabled).elements, (s.selected category).isSome) :=
  ⟨violations_check r s, subject_errors_check r s, nodup_subject_errors_check,
    ⟨ignored r s, warnings_check r s, fun _ => mem_ignored, pairwise_ignored hr.coherent⟩,
    fun _ => kind_of_mem_check, hasErrors_check_eq_false_iff⟩

/-- A scenario with three features and with one of the categories which they need, and with a
    selector for a feature which is off. -/
def capScenario : Scenario where
  name := "cap"
  features
    | .transmission | .carbonCap | .trackCarbonImports => true
    | _ => false
  selected
    | .temporal | .loadZones | .load | .projectPortfolio | .carbonCapZones => some 1
    | .tuning => some 4
    | _ => none

/-- The bundled requirements ask for what every scenario must select, and then for what the features
    need; the selector for numerical tuning is ignored. -/
theorem check_agrees_capScenario :
    (bundled.check capScenario).errors.map Violation.subject =
      [.category .projectOperationalChars, .category .projectLoadZones,
        .category .transmissionPortfolio, .category .transmissionLoadZones,
        .category .transmissionOperationalChars, .category .projectCarbonCapZones,
        .category .carbonCapTarget, .category .transmissionCarbonCapZones] ∧
    (bundled.check capScenario).warnings = [ignoredSelector .tuning ⟨.tuning, 4⟩] := by
  have hloaded : Loaded bundled := @Loaded.ofPath {} none bundled rfl
  obtain ⟨-, herrors, -⟩ := check_agrees hloaded capScenario
  exact ⟨herrors.trans (by decide), by decide⟩

/-! ## Consistency -/

/-- In coherent requirements no category is ignored twice. -/
theorem nodup_category_ignored (h : r.Coherent) :
    ((ignored r s).map fun p => some p.2.category).Nodup := by
  rw [List.Nodup, List.pairwise_map]
  refine (pairwise_ignored h).imp_of_mem fun {p q} hp hq hlt e => ?_
  -- A category which is ignored belongs to one feature, so its rank is determined.
  have hcategory : p.2.category = q.2.category := Option.some.inj e
  obtain ⟨-, hp, -⟩ := mem_ignored.1 hp
  obtain ⟨-, hq, -⟩ := mem_ignored.1 hq
  have hfeature : p.1 = q.1 := h.eq_of_exclusive (hcategory ▸ hp) hq
  rw [ignoredRank, ignoredRank, hfeature, hcategory] at hlt
  exact List.lt_irrefl _ hlt

/-- In coherent requirements no category is the subject of two violations. -/
theorem nodup_category_check (h : r.Coherent) :
    ((r.check s).violations.map fun v => v.subject.category?).Nodup := by
  have herrors : ((r.check s).errors.map fun v => v.subject.category?) =
      (unselected s (r.required s.enabled).elements).map some := by
    have hsubject := congrArg (List.map Subject.category?) (subject_errors_check r s)
    rw [List.map_map, List.map_map] at hsubject
    exact hsubject
  have hwarnings : ((r.check s).warnings.map fun v => v.subject.category?) =
      (ignored r s).map fun p => some p.2.category := by
    rw [warnings_check, List.map_map]
    rfl
  have hperm : ((r.check s).errors ++ (r.check s).warnings).Perm (r.check s).violations :=
    List.filter_append_perm _ _
  refine (hperm.map _).nodup_iff.1 ?_
  rw [List.map_append, herrors, hwarnings, List.nodup_append]
  refine ⟨((r.required s.enabled).nodup.filter _).map (fun _ _ e => Option.some.inj e),
    nodup_category_ignored h, fun a ha b hb e => ?_⟩
  -- For what is missing nothing is selected, and for what is ignored something is.
  obtain ⟨_, hmissing, rfl⟩ := List.mem_map.1 ha
  obtain ⟨p, hp, rfl⟩ := List.mem_map.1 hb
  obtain ⟨-, -, hselected⟩ := mem_ignored.1 hp
  rw [← Option.some.inj e, (mem_unselected.1 hmissing).2] at hselected
  cases hselected

/-- A selector which is ignored is exclusive to one feature, which is off, and is not required. -/
theorem not_mem_required_of_ignored (h : r.Coherent) {p : Feature × Selector}
    (hp : p ∈ ignored r s) : p.2.category ∉ (r.required s.enabled).elements ∧
      ∀ f, p.2.category ∈ (r.rule f).exclusive ↔ f = p.1 := by
  obtain ⟨hoff, howner, -⟩ := mem_ignored.1 hp
  refine ⟨h.not_mem_required howner fun hon => ?_, fun f => ⟨fun hf => ?_, fun e => e ▸ howner⟩⟩
  · rw [Scenario.enabled, List.mem_filter, hoff] at hon
    exact Bool.false_ne_true hon.2
  · exact h.eq_of_exclusive hf howner

/-- What accepted requirements say about a scenario is consistent: no category is the subject of two
    violations, and what a warning says is ignored is not required and belongs to exactly one
    feature, which is off. -/
theorem check_consistent {named : Named} (hok : ofNames named = .ok r) (s : Scenario) :
    ((r.check s).violations.map fun v => v.subject.category?).Nodup ∧
    ∀ v ∈ (r.check s).violations, v.severity = .warning → ∃ f selector,
      v = ignoredSelector f selector ∧ s.selected selector.category = some selector.id ∧
      selector.category ∉ (r.required s.enabled).elements ∧
      (∀ g, selector.category ∈ (r.rule g).exclusive ↔ g = f) ∧ s.features f = false := by
  have h := coherent_of_ofNames hok
  refine ⟨nodup_category_check h, fun v hv hwarning => ?_⟩
  have hmem : v ∈ (r.check s).warnings := by
    refine List.mem_filter.2 ⟨hv, ?_⟩
    rw [Violation.isError, hwarning]
    rfl
  rw [warnings_check] at hmem
  obtain ⟨p, hp, rfl⟩ := List.mem_map.1 hmem
  obtain ⟨hoff, -, hselected⟩ := mem_ignored.1 hp
  obtain ⟨hnot, hone⟩ := not_mem_required_of_ignored h hp
  exact ⟨p.1, p.2, rfl, hselected, hnot, hone, hoff⟩

/-- Requirements in which the rules of two features and what every scenario must select overlap. -/
def overlappingNames : Named where
  always := ["temporal", "temporal", "load"]
  features := Feature.all.map fun f => (f.name, match f with
    | .rps => { required := ["rps_target", "load", "rps_target"]
                exclusive := ["rps_zones", "rps_target"] }
    | .carbonCap => { required := ["load", "temporal", "load_zones"], exclusive := ["load_zones"] }
    | _ => {})

/-- A scenario with one of the two features, which selects what only the other one needs. -/
def overlappingScenario : Scenario where
  name := "overlapping"
  features f := f == .carbonCap
  selected
    | .rpsTarget | .rpsZones => some 2
    | _ => none

/-- The requirements are accepted. The scenario is told of five categories, each once; the two which
    it selects in vain are not required. -/
theorem check_consistent_overlapping : ∃ r, ofNames overlappingNames = .ok r ∧
    (r.check overlappingScenario).violations.map (·.subject.category?) =
      [some .temporal, some .load, some .rpsZones, some .rpsTarget, some .loadZones] ∧
    ((r.check overlappingScenario).violations.map fun v => v.subject.category?).Nodup ∧
    ∀ v ∈ (r.check overlappingScenario).violations, v.severity = .warning →
      ∃ f selector, v = ignoredSelector f selector ∧
        selector.category ∉ (r.required [.carbonCap]).elements := by
  have hisOk : (ofNames overlappingNames).isOk := by decide
  have hfound : (ofNames overlappingNames).toOption.map (fun r =>
      (r.check overlappingScenario).violations.map (·.subject.category?)) =
      some [some .temporal, some .load, some .rpsZones, some .rpsTarget, some .loadZones] := by
    decide
  obtain ⟨r, hok⟩ := exists_of_isOk hisOk
  rw [hok] at hfound
  obtain ⟨hnodup, hwarnings⟩ := check_consistent hok overlappingScenario
  refine ⟨r, hok, Option.some.inj hfound, hnodup, fun v hv hwarning => ?_⟩
  obtain ⟨f, selector, hv, -, hnot, -⟩ := hwarnings v hv hwarning
  exact ⟨f, selector, hv, hnot⟩

end CapacityExpansion.Requirements
