import CapacityExpansion.Proofs.Data.Success
import Mathlib.Data.List.Duplicate

/-!
# Failure of composed checks

What a computation composed of checks fails with is what one of its checks fails
with, those before it having succeeded. To say something of all its faults is
therefore to say it of the faults of each check, given what is known by then.

* `FailsWith`: what a computation may fail with; `FailsWith.bind`,
  `FailsWith.mapM`, `FailsWith.forM` and `FailsWith.foldlM` for composed ones;
* `FailsWith.checkInOrder`: rows checked against those before them, where a key
  which repeats an earlier one is a duplicate of the whole list.
-/

namespace CapacityExpansion

variable {α β κ ρ ε : Type} {P : ε → Prop}

/-- Whatever a computation fails with has a property. -/
def FailsWith (P : ε → Prop) (x : Except ε α) : Prop := ∀ fault, x = .error fault → P fault

namespace FailsWith

theorem ok (a : α) : FailsWith P (.ok a) := nofun

theorem error {fault : ε} (h : P fault) : FailsWith P (.error fault : Except ε α) := fun _ e => by
  cases e
  exact h

theorem require {condition : Prop} [Decidable condition] {fault : ε} (h : ¬condition → P fault) :
    FailsWith P (require condition fault) := by
  unfold CapacityExpansion.require
  split
  · exact ok ()
  · next hc => exact error (h hc)

/-- What comes second may rely on the success of what comes first. -/
theorem bind {x : Except ε α} {f : α → Except ε β} (hx : FailsWith P x)
    (hf : ∀ a, x = .ok a → FailsWith P (f a)) : FailsWith P (x >>= f) := by
  cases x with
  | error fault => exact error (hx fault rfl)
  | ok a => exact hf a rfl

/-- A condition which is required holds of what follows. -/
theorem require_bind {condition : Prop} [Decidable condition] {fault : ε} {f : Unit → Except ε β}
    (h : ¬condition → P fault) (hf : condition → FailsWith P (f ())) :
    FailsWith P (CapacityExpansion.require condition fault >>= f) :=
  bind (require h) fun _ hok => hf (require_ok_iff.1 hok)

section Lists

variable {l : List α}

theorem mapM {f : α → Except ε β} (h : ∀ a ∈ l, FailsWith P (f a)) : FailsWith P (l.mapM f) := by
  induction l with
  | nil => exact ok []
  | cons a l ih =>
    rw [List.forall_mem_cons] at h
    rw [List.mapM_cons]
    exact bind h.1 fun b _ => bind (ih h.2) fun bs _ => ok _

theorem forM {f : α → Except ε Unit} (h : ∀ a ∈ l, FailsWith P (f a)) : FailsWith P (l.forM f) := by
  induction l with
  | nil => exact ok ()
  | cons a l ih =>
    rw [List.forall_mem_cons] at h
    exact bind h.1 fun _ _ => ih h.2

/-- Each step may rely on an invariant of those before it. -/
theorem foldlM {f : β → α → Except ε β} (I : β → Prop)
    (hstep : ∀ b, I b → ∀ a ∈ l, ∀ b', f b a = .ok b' → I b')
    (h : ∀ b, I b → ∀ a ∈ l, FailsWith P (f b a)) {b : β} (hb : I b) :
    FailsWith P (l.foldlM f b) := by
  induction l generalizing b with
  | nil => exact ok b
  | cons a l ih =>
    simp only [List.forall_mem_cons] at h hstep
    rw [List.foldlM_cons]
    exact bind (h b hb).1 fun b' hok =>
      ih (fun b hb => (hstep b hb).2) (fun b hb => (h b hb).2) ((hstep b hb).1 b' hok)

end Lists

/-- A row may rely on being the second one with its key if some row before it has the key. -/
theorem checkInOrder {check : List ρ → ρ → Except ε Unit} (key : ρ → κ) {rows : List ρ}
    (h : ∀ earlier, ∀ row ∈ rows,
      (key row ∈ earlier.map key → (rows.map key).Duplicate (key row)) →
        FailsWith P (check earlier row)) :
    FailsWith P (checkInOrder check [] rows) := by
  suffices hfrom : ∀ earlier rest, rows = earlier.reverse ++ rest →
      FailsWith P (CapacityExpansion.checkInOrder check earlier rest) from hfrom [] rows rfl
  intro earlier rest e
  induction rest generalizing earlier with
  | nil => exact ok ()
  | cons row rest ih =>
    refine bind (h earlier row (by rw [e]; simp) fun hkey => ?_) fun _ _ =>
      ih (row :: earlier) (by rw [e]; simp)
    rw [List.duplicate_iff_sublist, e, List.map_append, List.map_reverse, List.map_cons]
    exact (List.singleton_sublist.2 (List.mem_reverse.2 hkey)).append
      (List.singleton_sublist.2 List.mem_cons_self)

end FailsWith

/-- A property which every step keeps holds in the end. -/
theorem foldlM_invariant {f : β → α → Except ε β} (I : β → Prop) {l : List α}
    (hstep : ∀ b, I b → ∀ a ∈ l, ∀ b', f b a = .ok b' → I b') {b b' : β} (hb : I b)
    (hok : l.foldlM f b = .ok b') : I b' := by
  induction l generalizing b with
  | nil =>
    cases hok
    exact hb
  | cons a l ih =>
    simp only [List.forall_mem_cons] at hstep
    rw [List.foldlM_cons, bind_ok_iff] at hok
    obtain ⟨c, hc, hok⟩ := hok
    exact ih (fun b hb => (hstep b hb).2) ((hstep b hb).1 c hc) hok

end CapacityExpansion
