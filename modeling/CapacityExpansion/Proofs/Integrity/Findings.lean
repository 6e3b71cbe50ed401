import CapacityExpansion.Proofs.Integrity.Offences

/-!
# The findings of validation

A *finding* is a selected fragment which is not registered, or an offence of a
registered one against a cross-reference. Validation reports each finding which
holds, once, and nothing else: first the fragments which are not registered, in
the order of the categories, then the offences, those of a category after those
of everything it depends on.

Since an offence holds only between registered fragments, a fragment which is
not registered is reported once and hides everything which refers to it: the
rest of the report is the one on the scenario without it.

* `mem_findings`, `pairwise_findings`: the findings are those which hold, in
  the order of their ranks;
* `findings_select_none`: a fragment which is not registered adds one finding;
* `validate_exact`: the report is that of the findings.
-/

namespace CapacityExpansion.Integrity

/-- Something wrong with the selected fragments. -/
inductive Finding where
  /-- A selected fragment is not registered. -/
  | dangling (selector : Selector)
  /-- A selected fragment has an offence against a reference. -/
  | offends (dependent : Selector) (offence : Offence)
  deriving DecidableEq, Repr

variable (store : Store) (s : Scenario)

namespace Finding

/-- The fragment which is at fault. -/
def fragment : Finding → Selector
  | dangling selector => selector
  | offends dependent _ => dependent

/-- The message about a finding. -/
def message : Finding → String
  | dangling selector =>
    "No " ++ selector.category.name ++ s!" subscenario with ID {selector.id} exists"
  | offends _ offence => offence.message

/-- The violation which a finding is. -/
def violation (finding : Finding) : Violation where
  kind := .danglingReference
  severity := .error
  subject := .fragment finding.fragment
  message := finding.message

/-- The store and the scenario are as a finding says. -/
def Holds : Finding → Prop
  | dangling selector =>
    s.selected selector.category = some selector.id ∧ store.fragment? selector = none
  | offends dependent offence =>
    ⟨dependent.category, offence.dependency⟩ ∈ crossReferences ∧ Registered store s dependent ∧
      (∀ other ∈ offence.other?, Registered store s other) ∧ offence.Holds store dependent

/-- The rank of a finding in the report: fragments which are not registered by category; offences
    by the category in the order of checks, by the reference, and by the place. -/
def rank : Finding → List Nat
  | dangling selector => [0, selector.category.position]
  | offends dependent offence =>
    let reference : CrossReference := ⟨dependent.category, offence.dependency⟩
    1 :: checkOrder.idxOf reference.source :: crossReferences.idxOf reference ::
      offence.place store dependent

end Finding

open Finding

/-- The findings about a reference. -/
def referenceFindings (x : CrossReference) : List Finding :=
  (registeredSelector? store s x.dependent).elim [] fun dependent =>
    (offences store s dependent x.dependency).map (offends dependent)

/-- The findings about the selected fragments. -/
def findings : List Finding :=
  (s.selectors.filter fun selector => (store.fragment? selector).isNone).map dangling ++
    (inCheckOrder checkOrder crossReferences).flatMap (referenceFindings store s)

variable {store s}

theorem map_violation_referenceFindings (x : CrossReference) :
    (referenceFindings store s x).map violation = referenceViolations store s x := by
  rw [referenceFindings, referenceViolations]
  cases registeredSelector? store s x.dependent with
  | none => rfl
  | some dependent =>
    simp only [← map_message_offences, List.map_map, Option.elim_some]
    rfl

/-- The report on the selected fragments is that of the findings. -/
theorem violations_validate :
    (validate store s).violations = (findings store s).map violation := by
  rw [validate, findings, List.map_append, List.map_map, List.map_flatMap]
  refine congrArg₂ (· ++ ·) ?_
    (List.flatMap_congr fun x _ => (map_violation_referenceFindings x).symm)
  rw [← List.filterMap_eq_map, List.filterMap_filter]
  refine List.filterMap_congr fun selector _ => ?_
  rw [danglingSelector?]
  cases store.fragment? selector <;> rfl

/-- The findings about a reference are the offences of the category which refers, against what the
    reference demands. -/
theorem mem_referenceFindings {x : CrossReference} {finding : Finding} :
    finding ∈ referenceFindings store s x ↔ ∃ dependent offence,
      finding = offends dependent offence ∧ x = ⟨dependent.category, offence.dependency⟩ ∧
        Registered store s dependent ∧ (∀ other ∈ offence.other?, Registered store s other) ∧
        offence.Holds store dependent := by
  simp only [referenceFindings, mem_ofRegistered, List.mem_map, mem_offences]
  constructor
  · rintro ⟨dependent, hcat, hreg, offence, ⟨hdep, hother, h⟩, rfl⟩
    refine ⟨dependent, offence, rfl, ?_, hreg, hother, h⟩
    rw [hcat, hdep]
  · rintro ⟨dependent, offence, rfl, rfl, hreg, hother, h⟩
    exact ⟨dependent, rfl, hreg, offence, ⟨rfl, hother, h⟩, rfl⟩

/-- The findings are those which hold. -/
theorem mem_findings {finding : Finding} :
    finding ∈ findings store s ↔ finding.Holds store s := by
  simp only [findings, List.mem_append, List.mem_map, List.mem_filter, Scenario.mem_selectors,
    Option.isNone_iff_eq_none, List.mem_flatMap, mem_referenceFindings, inCheckOrder, mem_sortOn]
  -- What is not registered is found among the selectors only, and offences at references only.
  cases finding with
  | dangling selector =>
    constructor
    · rintro (⟨_, h, e⟩ | ⟨_, _, _, _, e, _⟩)
      · cases e
        exact h
      · cases e
    · exact fun h => .inl ⟨selector, h, rfl⟩
  | offends dependent offence =>
    constructor
    · rintro (⟨_, _, e⟩ | ⟨_, hx, _, _, e, rfl, h⟩)
      · cases e
      · cases e
        exact ⟨hx, h⟩
    · rintro ⟨hx, h⟩
      exact .inr ⟨_, hx, dependent, offence, rfl, rfl, h⟩

/-- The selectors of a scenario are in the order of their categories. -/
theorem pairwise_selectors :
    s.selectors.Pairwise fun a b => a.category.position < b.category.position := by
  refine List.pairwise_filterMap.2 ((increasing_idxOf Category.nodup_all).imp ?_)
  rintro c d hcd a ha b hb
  obtain ⟨_, -, rfl⟩ := Option.map_eq_some_iff.1 ha
  obtain ⟨_, -, rfl⟩ := Option.map_eq_some_iff.1 hb
  exact hcd

/-- References are checked in the order of the categories which refer, those of one category in the
    order in which they are declared. -/
theorem pairwise_inCheckOrder :
    (inCheckOrder checkOrder crossReferences).Pairwise fun x y =>
      checkOrder.idxOf x.source < checkOrder.idxOf y.source ∨
        checkOrder.idxOf x.source = checkOrder.idxOf y.source ∧
          crossReferences.idxOf x < crossReferences.idxOf y :=
  pairwise_sortOn_of_pairwise (increasing_idxOf nodup_crossReferences)

/-- The findings about a reference are in the order of their ranks. -/
theorem pairwise_referenceFindings (x : CrossReference) :
    (referenceFindings store s x).Pairwise fun a b => a.rank store < b.rank store := by
  refine pairwise_ofRegistered fun dependent hcat => List.pairwise_map.2 ?_
  refine (pairwise_offences dependent x.dependency).imp_of_mem fun {a b} ha hb hlt => ?_
  -- They are offences of one fragment against one reference, so only their places differ.
  rw [mem_offences] at ha hb
  simp only [rank, ha.1, hb.1]
  exact .cons (.cons (.cons hlt))

/-- The findings are in the order of their ranks. -/
theorem pairwise_findings :
    (findings store s).Pairwise fun a b => a.rank store < b.rank store := by
  rw [findings, List.pairwise_append, List.pairwise_flatMap]
  refine ⟨?_, ⟨fun x _ => pairwise_referenceFindings x, ?_⟩, fun a ha b hb => ?_⟩
  · exact List.pairwise_map.2 ((pairwise_selectors.filter _).imp fun h => .cons (.rel h))
  · -- Findings about two references are in the order in which these are checked.
    refine pairwise_inCheckOrder.imp fun hxy a ha b hb => ?_
    obtain ⟨_, _, rfl, rfl, -⟩ := mem_referenceFindings.1 ha
    obtain ⟨_, _, rfl, rfl, -⟩ := mem_referenceFindings.1 hb
    rcases hxy with hlt | ⟨e, hlt⟩
    · exact .cons (.rel hlt)
    · simp only [rank, e]
      exact .cons (.cons (.rel hlt))
  · obtain ⟨_, -, rfl⟩ := List.mem_map.1 ha
    obtain ⟨_, -, hb⟩ := List.mem_flatMap.1 hb
    obtain ⟨_, _, rfl, -⟩ := mem_referenceFindings.1 hb
    exact .rel Nat.zero_lt_one

/-- Findings in the order of their ranks are listed once each. -/
theorem nodup_of_pairwise_rank {l : List Finding}
    (h : l.Pairwise fun a b => a.rank store < b.rank store) : l.Nodup := by
  refine List.Pairwise.imp (fun hab e => ?_) h
  subst e
  exact List.lt_irrefl _ hab

/-- A list in the order of the ranks is determined by the findings in it. -/
theorem eq_findings {l : List Finding} (hl : l.Pairwise fun a b => a.rank store < b.rank store)
    (h : ∀ finding, finding ∈ l ↔ finding.Holds store s) : l = findings store s := by
  have hperm : l.Perm (findings store s) :=
    (List.perm_ext_iff_of_nodup (nodup_of_pairwise_rank hl)
      (nodup_of_pairwise_rank pairwise_findings)).2 fun _ => (h _).trans mem_findings.symm
  exact hperm.eq_of_pairwise (fun _ _ _ _ hab hba => absurd hba (List.lt_asymm hab)) hl
    pairwise_findings

/-- A scenario selects one fragment of a category. -/
theorem eq_of_selected {a b : Selector} (ha : s.selected a.category = some a.id)
    (hb : s.selected b.category = some b.id) (e : a.category = b.category) : a = b := by
  obtain ⟨c, id⟩ := a
  obtain ⟨d, id'⟩ := b
  cases e
  exact congrArg _ (Option.some.inj (ha.symm.trans hb))

/-! ## A fragment which is not registered -/

section Dangling

variable {selector : Selector} (h : (dangling selector).Holds store s)

include h

/-- Nothing else is found about a fragment which is not registered. -/
theorem eq_dangling_of_fragment_eq {finding : Finding} (hf : finding.Holds store s)
    (e : finding.fragment = selector) : finding = dangling selector := by
  cases finding with
  | dangling other => exact congrArg dangling e
  | offends dependent offence =>
    obtain ⟨-, ⟨-, hreg⟩, -⟩ := hf
    rw [Finding.fragment] at e
    rw [e, h.2] at hreg
    cases hreg

theorem registered_select_none_iff {other : Selector} :
    Registered store (s.select selector.category none) other ↔ Registered store s other := by
  by_cases hcat : other.category = selector.category
  · -- Of this category the scenario selects what is not registered, and without it nothing.
    refine iff_of_false (fun hreg => ?_) fun hreg => ?_
    · simp [Registered, Scenario.select, hcat] at hreg
    · rw [eq_of_selected hreg.1 h.1 hcat, Registered, h.2] at hreg
      cases hreg.2
  · simp [Registered, Scenario.select, hcat]

/-- Without the fragment there is one finding less. -/
theorem holds_select_none_iff {finding : Finding} :
    finding.Holds store (s.select selector.category none) ↔
      finding.Holds store s ∧ finding ≠ dangling selector := by
  cases finding with
  | dangling other =>
    by_cases hcat : other.category = selector.category
    · refine iff_of_false (fun hd => ?_) fun hd => ?_
      · simp [Holds, Scenario.select, hcat] at hd
      · exact hd.2 (congrArg dangling (eq_of_selected hd.1.1 h.1 hcat))
    · have hne : other ≠ selector := fun e => hcat (congrArg Selector.category e)
      simp [Holds, Scenario.select, hcat, hne]
  | offends dependent offence => simp [Holds, registered_select_none_iff h]

theorem findings_select_none :
    findings store (s.select selector.category none) =
      (findings store s).filter (· ≠ dangling selector) := by
  refine (eq_findings (pairwise_findings.filter _) fun finding => ?_).symm
  rw [List.mem_filter, mem_findings, holds_select_none_iff h, decide_eq_true_iff]

/-- The violations about a fragment which is not registered are one, and the rest of the report is
    that on the scenario without it. -/
theorem validate_dangling :
    (validate store s).violations.filter (·.subject = .fragment selector) =
        [(dangling selector).violation] ∧
      (validate store s).violations.filter (·.subject ≠ .fragment selector) =
        (validate store (s.select selector.category none)).violations := by
  -- The subject of a violation tells whether it is the one about the fragment.
  have hsubject : ∀ finding ∈ findings store s,
      finding.violation.subject = .fragment selector ↔ finding = dangling selector := by
    intro finding hf
    rw [mem_findings] at hf
    refine ⟨fun e => eq_dangling_of_fragment_eq h hf (Subject.fragment.inj e), fun e => ?_⟩
    rw [e]
    rfl
  simp only [violations_validate, findings_select_none h, List.filter_map]
  constructor
  · have hcount := List.count_eq_one_of_mem (nodup_of_pairwise_rank pairwise_findings)
      (mem_findings.2 h)
    calc _ = ((findings store s).filter (· = dangling selector)).map violation :=
          congrArg _ (List.filter_congr fun finding hf => decide_eq_decide.2 (hsubject finding hf))
      _ = [(dangling selector).violation] := by rw [List.filter_eq, hcount]; rfl
  · exact congrArg _ (List.filter_congr fun finding hf =>
      decide_eq_decide.2 (not_congr (hsubject finding hf)))

end Dangling

/-- The report on the selected fragments lists the findings which hold, each once, in the order of
    their ranks; what a category depends on has a smaller rank than the category. A scenario has an
    empty report if and only if there is nothing to find, and a fragment which is not registered
    adds one violation to the report on the scenario without it. -/
theorem validate_exact (store : Store) (s : Scenario) :
    (∃ findings : List Finding,
      (validate store s).violations = findings.map violation ∧
      (∀ finding, finding ∈ findings ↔ finding.Holds store s) ∧
      findings.Pairwise fun a b => a.rank store < b.rank store) ∧
    (∀ x ∈ crossReferences, checkOrder.idxOf x.target < checkOrder.idxOf x.source) ∧
    ((validate store s).isEmpty ↔ ∀ finding : Finding, ¬finding.Holds store s) ∧
    ∀ selector, (dangling selector).Holds store s →
      (validate store s).violations.filter (·.subject = .fragment selector) =
          [(dangling selector).violation] ∧
        (validate store s).violations.filter (·.subject ≠ .fragment selector) =
          (validate store (s.select selector.category none)).violations := by
  refine ⟨⟨findings store s, violations_validate, fun _ => mem_findings, pairwise_findings⟩,
    fun x hx => Graph.idxOf_lt_of_checkOrder? checkOrder?_crossReferences hx, ?_,
    fun _ h => validate_dangling h⟩
  rw [Report.isEmpty, violations_validate, List.isEmpty_iff, List.map_eq_nil_iff,
    List.eq_nil_iff_forall_not_mem]
  exact forall_congr' fun _ => not_congr mem_findings

/-- A store with the operational characteristics of a project whose heat rate curve is missing. -/
def storeWithoutCurve : Store :=
  { Store.empty.insertFragment .projectOperationalChars ⟨1, "base", ""⟩ with
    operationalChars := .ofList [(1, .ofList [("gas_ct",
      { project := "gas_ct", operationalType := "gen_commit_bin", heatRateCurve := some 2 })])] }

/-- A scenario with these characteristics and a portfolio which is not registered. -/
def scenarioWithoutPortfolio : Scenario where
  name := "base"
  selected
    | .projectOperationalChars => some 1
    | .projectPortfolio => some 99
    | _ => none

/-- The portfolio is reported once, although the characteristics depend on it. -/
theorem validate_exact_withoutPortfolio :
    (dangling ⟨.projectPortfolio, 99⟩).Holds storeWithoutCurve scenarioWithoutPortfolio ∧
      (validate storeWithoutCurve scenarioWithoutPortfolio).violations.filter
          (·.subject = .fragment ⟨.projectPortfolio, 99⟩) =
        [(dangling ⟨.projectPortfolio, 99⟩).violation] :=
  have h : (dangling ⟨.projectPortfolio, 99⟩).Holds storeWithoutCurve scenarioWithoutPortfolio :=
    ⟨rfl, by decide⟩
  ⟨h, ((validate_exact storeWithoutCurve scenarioWithoutPortfolio).2.2.2 _ h).1⟩

example : findings storeWithoutCurve scenarioWithoutPortfolio =
    [dangling ⟨.projectPortfolio, 99⟩, offends ⟨.projectOperationalChars, 1⟩
      (.missingFragment .heatRateCurves "gas_ct" "gas_ct" 2)] := by
  decide +kernel

end CapacityExpansion.Integrity
