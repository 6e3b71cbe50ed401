import CapacityExpansion.Scenario.Category
import CapacityExpansion.Temporal.Fault

/-!
# Reports

What is wrong with a scenario is collected in a report, so that several problems
can be mended at once. An error keeps the scenario from being assembled; a
warning is passed on with the result. A fault of the temporal tables is an error
about the temporal fragment.
-/

namespace CapacityExpansion

/-- The kind of a violation. -/
inductive ViolationKind where
  /-- A selector or a reference names something which does not exist. -/
  | danglingReference
  /-- The temporal tables do not fit together. -/
  | structuralInconsistency
  /-- The features and the selectors do not fit together. -/
  | featureSelectorIncoherence
  /-- A timepoint is in two horizons of one balancing type. -/
  | duplicateMembership
  deriving DecidableEq, Repr

/-- The name of a kind of violation. -/
def ViolationKind.name : ViolationKind → String
  | .danglingReference => "dangling_reference"
  | .structuralInconsistency => "structural_inconsistency"
  | .featureSelectorIncoherence => "feature_selector_incoherence"
  | .duplicateMembership => "duplicate_membership"

/-- All kinds of violations. -/
def ViolationKind.all : List ViolationKind :=
  [.danglingReference, .structuralInconsistency, .featureSelectorIncoherence, .duplicateMembership]

/-- How serious a violation is. -/
inductive Severity where
  /-- It is passed on. -/
  | warning
  /-- It prevents assembly. -/
  | error
  deriving DecidableEq, Repr

/-- The name of a severity. -/
def Severity.name : Severity → String
  | .warning => "warning"
  | .error => "error"

/-- What a violation is about. -/
inductive Subject where
  /-- The scenario as a whole. -/
  | scenario
  /-- A category for which nothing is selected. -/
  | category (category : Category)
  /-- A selected fragment. -/
  | fragment (selector : Selector)
  deriving DecidableEq, Repr

/-- The category of a subject, if it has one. -/
def Subject.category? : Subject → Option Category
  | .scenario => none
  | .category c => some c
  | .fragment s => some s.category

/-- The fragment of a subject, if it has one. -/
def Subject.fragment? : Subject → Option Nat
  | .fragment s => some s.id
  | _ => none

/-- A problem of a scenario. -/
structure Violation where
  /-- Its kind. -/
  kind : ViolationKind
  /-- How serious it is. -/
  severity : Severity
  /-- What it is about. -/
  subject : Subject := .scenario
  /-- What is wrong, in words. -/
  message : String
  deriving DecidableEq, Repr

namespace Violation

variable (v : Violation)

/-- Whether the violation prevents assembly. -/
def isError : Bool := v.severity == .error

/-- The line which shows a violation. -/
def text : String :=
  "[" ++ v.severity.name ++ "] " ++
    match v.subject with
    | .scenario => v.message
    | .category c => c.name ++ ": " ++ v.message
    | .fragment s => s.category.name ++ s!" ({s.id}): " ++ v.message

end Violation

/-- The violations found for a scenario, in the order they were found. -/
structure Report where
  /-- The violations. -/
  violations : List Violation := []
  deriving DecidableEq, Repr

namespace Report

variable (r : Report)

instance : Append Report := ⟨fun a b => ⟨a.violations ++ b.violations⟩⟩

/-- The report with a further violation. -/
def push (v : Violation) : Report := ⟨r.violations ++ [v]⟩

/-- The violations which prevent assembly. -/
def errors : List Violation := r.violations.filter Violation.isError

/-- The violations which do not. -/
def warnings : List Violation := r.violations.filter fun v => !v.isError

/-- Whether some violation prevents assembly. -/
def hasErrors : Bool := r.violations.any Violation.isError

/-- Whether there are no violations. -/
def isEmpty : Bool := r.violations.isEmpty

/-- The number of violations. -/
def size : Nat := r.violations.length

/-- The lines which show the violations, one item of a list for each. -/
def text : String := String.join (r.violations.map fun v => "  * " ++ v.text ++ "\n")

@[simp] theorem violations_append (a b : Report) :
    (a ++ b).violations = a.violations ++ b.violations := rfl

/-- Joined reports have errors if and only if one of them has. -/
theorem hasErrors_append (a b : Report) : (a ++ b).hasErrors = (a.hasErrors || b.hasErrors) :=
  List.any_append

/-- A report has errors if and only if it lists some. -/
theorem hasErrors_iff {r : Report} : r.hasErrors = true ↔ r.errors ≠ [] := by
  simp [hasErrors, errors]

end Report

/-- The kind of violation which a defect of the temporal tables is. -/
def Temporal.Defect.violationKind : Temporal.Defect → ViolationKind
  | .duplicateHorizonMembership .. => .duplicateMembership
  | _ => .structuralInconsistency

/-- The violation which a fault of the temporal tables is. -/
def Temporal.Fault.violation (fault : Temporal.Fault) : Violation where
  kind := fault.defect.violationKind
  severity := .error
  subject := .fragment ⟨.temporal, fault.location.fragment⟩
  message := fault.message

end CapacityExpansion
