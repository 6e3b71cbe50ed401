/-!
# Checking in order

Checks which stop at the first thing wrong. What is checked is a list of rows,
each against those before it, so that a repeated row is found where it repeats.

* `require`: a single check;
* `checkInOrder`: the checks of a list of rows.
-/

namespace CapacityExpansion

variable {ρ ε : Type}

/-- The fault, unless a condition holds. -/
def require (condition : Prop) [Decidable condition] (fault : ε) : Except ε Unit :=
  if condition then .ok () else .error fault

@[simp] theorem require_ok_iff {condition : Prop} [Decidable condition] {fault : ε} :
    require condition fault = .ok () ↔ condition := by
  unfold require; split <;> simp_all

/-- Rows checked in order, each against those before it, the latest first. -/
def checkInOrder (check : (earlier : List ρ) → ρ → Except ε Unit) :
    (earlier : List ρ) → List ρ → Except ε Unit
  | _, [] => .ok ()
  | earlier, row :: rest => do
    check earlier row
    checkInOrder check (row :: earlier) rest

end CapacityExpansion
