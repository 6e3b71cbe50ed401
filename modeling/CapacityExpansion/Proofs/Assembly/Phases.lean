import CapacityExpansion.Assembly.Basic
import CapacityExpansion.Proofs.Integrity.Findings
import CapacityExpansion.Proofs.Requirements.Advice
import CapacityExpansion.Proofs.Temporal.Arrangement

/-!
# The phases of assembly

Assembly has two phases. The first one reports on the selectors: on the
fragments they select and on what the features require. If it finds an error,
that report is the answer. Otherwise the second phase resolves the temporal
hierarchy, and either everything is *ready* or there is one *obstacle*, which is
added to the report. So a scenario is assembled as a whole, with the warnings of
the first phase, or not at all, and the temporal tables are not spoken of while
something is wrong with the selectors.

* `Ready`, `Obstructed`, `ready_or_obstructed`: what the second phase can find;
* `kind_of_mem_report`: the first phase has kinds of violations of its own;
* `assemble_cases`: the three ways in which assembly ends;
* `assemble_phases`: what assembly gives, in terms of the two phases.
-/

namespace CapacityExpansion

namespace Assembly

variable (store : Store) (s : Scenario) (r : Requirements)

/-- The temporal tables of a fragment; there are none if the fragment has no contents. -/
def temporalTables (id : Nat) : Temporal.Tables := (store.temporal.get? id).getD .empty

/-- The scenario selects temporal tables which have a hierarchy, and the hierarchy has several
    stages in a subproblem only if the scenario has the feature for them. -/
def Ready (h : Temporal.Hierarchy) : Prop :=
  ∃ id, s.selected .temporal = some id ∧
    (Temporal.resolve id (temporalTables store id)).outcome = .ok h ∧
    (s.features .multiStage = true ∨ ∀ subproblem ∈ h.subproblems, subproblem.stages.length ≤ 1)

/-- What is in the way of a scenario whose selectors have no errors. -/
inductive Obstructed : Violation → Prop where
  /-- No temporal fragment is selected. -/
  | noTemporal (hid : s.selected .temporal = none) : Obstructed missingTemporal
  /-- The temporal tables have no hierarchy. -/
  | fault {id : Nat} {fault : Temporal.Fault} (hid : s.selected .temporal = some id)
      (hfault : (Temporal.resolve id (temporalTables store id)).outcome = .error fault) :
      Obstructed fault.violation
  /-- A subproblem has several stages, but the feature for them is off. -/
  | stages {id : Nat} {h : Temporal.Hierarchy} {v : Violation}
      (hid : s.selected .temporal = some id)
      (hok : (Temporal.resolve id (temporalTables store id)).outcome = .ok h)
      (hv : stageViolation? s h = some v) : Obstructed v

variable {store s r}

theorem stageViolation?_eq_none_iff {h : Temporal.Hierarchy} :
    stageViolation? s h = none ↔ s.features .multiStage = true ∨
      ∀ subproblem ∈ h.subproblems, subproblem.stages.length ≤ 1 := by
  rw [← Temporal.Hierarchy.maxStageCount_le_iff, stageViolation?]
  split
  · next h => simpa [or_comm] using h
  · next h => simpa [or_comm] using h

/-- Either everything is ready or something is in the way. -/
theorem ready_or_obstructed (store : Store) (s : Scenario) :
    (∃ h, Ready store s h) ∨ ∃ v, Obstructed store s v := by
  cases hid : s.selected .temporal with
  | none => exact .inr ⟨_, .noTemporal hid⟩
  | some id =>
    cases hok : (Temporal.resolve id (temporalTables store id)).outcome with
    | error fault => exact .inr ⟨_, .fault hid hok⟩
    | ok h =>
      cases hv : stageViolation? s h with
      | none => exact .inl ⟨h, id, hid, hok, stageViolation?_eq_none_iff.1 hv⟩
      | some v => exact .inr ⟨v, .stages hid hok hv⟩

/-! ## What the phases report -/

/-- The first phase finds dangling references and incoherent features, but nothing of the kinds
    which faults of the temporal tables have. -/
theorem kind_of_mem_report {v : Violation} (hv : v ∈ (report store s r).violations) :
    v.kind = .danglingReference ∨ v.kind = .featureSelectorIncoherence := by
  rw [report, Report.violations_append, Integrity.violations_validate, List.mem_append] at hv
  rcases hv with hv | hv
  · obtain ⟨_, -, rfl⟩ := List.mem_map.1 hv
    exact .inl rfl
  · exact .inr (Requirements.kind_of_mem_check hv)

/-- What is in the way prevents assembly. -/
theorem isError_of_obstructed {v : Violation} (hv : Obstructed store s v) : v.isError = true := by
  cases hv with
  | noTemporal => rfl
  | fault => rfl
  | stages _ _ hv =>
    rw [stageViolation?] at hv
    split at hv
    · cases hv
    · cases hv
      rfl

/-! ## The outcome -/

theorem assemble_of_ready {h : Temporal.Hierarchy}
    (hR : (report store s r).hasErrors = false) (hready : Ready store s h) :
    (assemble store s r).outcome = .ok (resolved store s h (report store s r)) := by
  obtain ⟨id, hid, hok, hstages⟩ := hready
  rw [temporalTables] at hok
  simp [assemble, hR, hid, hok, stageViolation?_eq_none_iff.2 hstages]

theorem assemble_of_obstructed {v : Violation} (hR : (report store s r).hasErrors = false)
    (hv : Obstructed store s v) :
    (assemble store s r).outcome =
      .error { scenario := s.name, report := (report store s r).push v } := by
  cases hv with
  | noTemporal hid => simp [assemble, hR, hid]
  | fault hid hfault =>
    rw [temporalTables] at hfault
    simp [assemble, hR, hid, hfault]
  | stages hid hok hv =>
    rw [temporalTables] at hok
    simp [assemble, hR, hid, hok, hv]

/-- Assembly ends in the first phase, with everything ready, or with something in the way. -/
theorem assemble_cases (store : Store) (s : Scenario) (r : Requirements) :
    ((report store s r).hasErrors = true ∧
      (assemble store s r).outcome =
        .error { scenario := s.name, report := report store s r }) ∨
    (report store s r).hasErrors = false ∧
      ((∃ h, Ready store s h ∧
        (assemble store s r).outcome = .ok (resolved store s h (report store s r))) ∨
      ∃ v, Obstructed store s v ∧
        (assemble store s r).outcome =
          .error { scenario := s.name, report := (report store s r).push v }) := by
  cases hR : (report store s r).hasErrors with
  | true => exact .inl ⟨rfl, assemble_report hR⟩
  | false =>
    refine .inr ⟨rfl, ?_⟩
    rcases ready_or_obstructed store s with ⟨h, hready⟩ | ⟨v, hv⟩
    · exact .inl ⟨h, hready, assemble_of_ready hR hready⟩
    · exact .inr ⟨v, hv, assemble_of_obstructed hR hv⟩

/-- An assembled scenario is made of what is ready, once nothing is found which prevents it. -/
theorem exists_ready_of_ok {scenario : ResolvedScenario}
    (hok : (assemble store s r).outcome = .ok scenario) : (report store s r).hasErrors = false ∧
      ∃ h, Ready store s h ∧ resolved store s h (report store s r) = scenario := by
  rcases assemble_cases store s r with ⟨-, e⟩ | ⟨hR, ⟨h, hready, e⟩ | ⟨_, -, e⟩⟩
  · cases hok.symm.trans e
  · exact ⟨hR, h, hready, Except.ok.inj (e.symm.trans hok)⟩
  · cases hok.symm.trans e

/-- A scenario is assembled if and only if the first phase finds no error and the second one finds
    everything ready. -/
theorem exists_ok_iff :
    (∃ scenario, (assemble store s r).outcome = .ok scenario) ↔
      (report store s r).hasErrors = false ∧ ∃ h, Ready store s h := by
  constructor
  · rintro ⟨scenario, hok⟩
    obtain ⟨hR, h, hready, -⟩ := exists_ready_of_ok hok
    exact ⟨hR, h, hready⟩
  · rintro ⟨hR, h, hready⟩
    exact ⟨_, assemble_of_ready hR hready⟩

/-- An assembled scenario has the report of the first phase as its warnings. -/
theorem warnings_of_ok {scenario : ResolvedScenario}
    (hok : (assemble store s r).outcome = .ok scenario) :
    scenario.warnings = report store s r ∧
      ∀ v ∈ scenario.warnings.violations, v.severity ≠ .error := by
  obtain ⟨hR, h, -, rfl⟩ := exists_ready_of_ok hok
  refine ⟨rfl, fun v hv => ?_⟩
  have := List.any_eq_false.1 hR v hv
  simpa [Violation.isError] using this

/-- The report on a scenario which is not assembled is that of the first phase with, if that has no
    errors, what is in the way. -/
theorem report_of_error {e : AssemblyError} (herr : (assemble store s r).outcome = .error e) :
    e.report.hasErrors = true ∧ ∃ further : Option Violation,
      e.report.violations = (report store s r).violations ++ further.toList ∧
      (further.isSome ↔ (report store s r).hasErrors = false) ∧
      ∀ v ∈ further, Obstructed store s v := by
  rcases assemble_cases store s r with ⟨hR, e⟩ | ⟨hR, ⟨_, -, e⟩ | ⟨v, hv, e⟩⟩
  · rw [herr] at e
    cases e
    refine ⟨hR, none, ?_, ?_, fun v hv => absurd hv (Option.not_mem_none v)⟩
    · rw [Option.toList_none, List.append_nil]
    · simp [hR]
  · rw [herr] at e
    cases e
  · rw [herr] at e
    cases e
    refine ⟨?_, some v, rfl, by simp [hR], fun _ hw => Option.some.inj hw ▸ hv⟩
    simp [Report.hasErrors, Report.push, isError_of_obstructed hv]

/-- A violation of a kind which the first phase does not have is the further one, the last of the
    report. -/
theorem last_of_kind {v : Violation} {before after : List Violation} {further : Option Violation}
    (e : (report store s r).violations ++ further.toList = before ++ v :: after)
    (hkind : v.kind = .structuralInconsistency ∨ v.kind = .duplicateMembership) :
    before = (report store s r).violations ∧ after = [] ∧ further.isSome := by
  -- It is not in the report of the first phase, so nothing can come after it.
  have hnot : v ∉ (report store s r).violations := fun hmem => by
    rcases kind_of_mem_report hmem with h | h <;> simp [h] at hkind
  cases further with
  | none =>
    rw [Option.toList_none, List.append_nil] at e
    exact absurd (e ▸ List.mem_append_right _ List.mem_cons_self) hnot
  | some w =>
    rcases List.eq_nil_or_concat after with rfl | ⟨after, x, rfl⟩
    · exact ⟨(List.append_inj' e rfl).1.symm, rfl, rfl⟩
    · rw [List.concat_eq_append, ← List.cons_append, ← List.append_assoc] at e
      rw [(List.append_inj' e rfl).1] at hnot
      exact absurd (List.mem_append_right _ List.mem_cons_self) hnot

/-- A scenario is assembled if and only if the report on its selectors has no errors and everything
    is ready; the report then has the warnings. Otherwise the report is extended by what is in the
    way, if it has no errors itself, and by nothing if it has. So a fault of the temporal tables is
    the last violation, after a report without errors, and nothing is noticed about these tables
    while there are errors. -/
theorem assemble_phases (store : Store) (s : Scenario) (r : Requirements) :
    ((∃ scenario, (assemble store s r).outcome = .ok scenario) ↔
      (report store s r).hasErrors = false ∧ ∃ h, Ready store s h) ∧
    (∀ scenario, (assemble store s r).outcome = .ok scenario →
      scenario.warnings = report store s r ∧
        ∀ v ∈ scenario.warnings.violations, v.severity ≠ .error) ∧
    (∀ e, (assemble store s r).outcome = .error e →
      e.report.hasErrors = true ∧
      (∃ further : Option Violation,
        e.report.violations = (report store s r).violations ++ further.toList ∧
        (further.isSome ↔ (report store s r).hasErrors = false) ∧
        ∀ v ∈ further, Obstructed store s v) ∧
      ∀ before v after, e.report.violations = before ++ v :: after →
        v.kind = .structuralInconsistency ∨ v.kind = .duplicateMembership →
        before = (report store s r).violations ∧ after = [] ∧
          (report store s r).hasErrors = false) ∧
    ((report store s r).hasErrors = true → (assemble store s r).demotions = []) := by
  refine ⟨exists_ok_iff, fun _ => warnings_of_ok, fun e herr => ?_, fun hR => ?_⟩
  · obtain ⟨herrors, further, hviolations, hfurther, hobstructed⟩ := report_of_error herr
    refine ⟨herrors, ⟨further, hviolations, hfurther, hobstructed⟩, fun before v after e hkind => ?_⟩
    obtain ⟨hbefore, hafter, hsome⟩ := last_of_kind (hviolations ▸ e) hkind
    exact ⟨hbefore, hafter, hfurther.1 hsome⟩
  · simp only [assemble, hR, if_true]

/-- Requirements by which a scenario must select temporal tables and nothing else. -/
def temporalOnly : Requirements := { always := [.temporal], rule := fun _ => {} }

/-- A store with the tables of two days, and tables without any row which are registered only. -/
def daysStore : Store :=
  { (Store.empty.insertFragment .temporal ⟨1, "two days", ""⟩).insertFragment .temporal
      ⟨2, "nothing", ""⟩ with temporal := .ofList [(1, Temporal.twoDays)] }

/-- A scenario of these tables. -/
def daysScenario (id : Nat) : Scenario :=
  ({ name := "days" : Scenario }.switch .multiStage true).select .temporal (some id)

/-- The scenario of two days is assembled without warnings; that of the tables without rows is not,
    for one reason. -/
theorem assemble_phases_days :
    (∃ scenario, (assemble daysStore (daysScenario 1) temporalOnly).outcome = .ok scenario ∧
      scenario.warnings = ⟨[]⟩) ∧
    ∃ e, (assemble daysStore (daysScenario 2) temporalOnly).outcome = .error e ∧
      ∃ v, e.report.violations = [v] ∧ Obstructed daysStore (daysScenario 2) v := by
  constructor
  · obtain ⟨H, hok, -⟩ := Temporal.exists_resolve_twoDays
    have hready : Ready daysStore (daysScenario 1) H := ⟨1, rfl, hok, .inl rfl⟩
    have hR : report daysStore (daysScenario 1) temporalOnly = ⟨[]⟩ := by decide +kernel
    have h := assemble_phases daysStore (daysScenario 1) temporalOnly
    obtain ⟨scenario, hscenario⟩ := h.1.2 ⟨by rw [hR]; rfl, H, hready⟩
    exact ⟨scenario, hscenario, hR ▸ (h.2.1 scenario hscenario).1⟩
  · have hR : report daysStore (daysScenario 2) temporalOnly = ⟨[]⟩ := by decide +kernel
    have h := assemble_phases daysStore (daysScenario 2) temporalOnly
    rw [hR] at h
    cases herr : (assemble daysStore (daysScenario 2) temporalOnly).outcome with
    | ok scenario =>
      obtain ⟨-, H, _, hid, hok, -⟩ := h.1.1 ⟨scenario, herr⟩
      cases hid
      cases hok
    | error e =>
      obtain ⟨-, ⟨further, hviolations, hsome, hobstructed⟩, -⟩ := h.2.2.1 e herr
      obtain ⟨v, rfl⟩ := Option.isSome_iff_exists.1 (hsome.2 rfl)
      exact ⟨e, rfl, v, hviolations, hobstructed v rfl⟩

end Assembly

end CapacityExpansion
