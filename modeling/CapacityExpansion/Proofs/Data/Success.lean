import CapacityExpansion.Data.Checking
import Mathlib.Data.List.Forall2
import Mathlib.Data.List.Nodup
import Mathlib.Data.List.Perm.Basic

/-!
# Success of composed checks

A computation which may fail is composed of checks: one after the other, one for
each element of a list, or one for each row against the rows before it. It
succeeds if and only if all of its checks do.

* `bind_ok_iff`, `mapM_ok_iff`, `forM_ok_iff`: success of the parts;
* `checkInOrder_nodup_iff`: rows which must have new keys are rows with distinct
  keys.
-/

namespace CapacityExpansion

variable {α β κ ρ ε : Type}

theorem bind_ok_iff {x : Except ε α} {f : α → Except ε β} {b : β} :
    x >>= f = .ok b ↔ ∃ a, x = .ok a ∧ f a = .ok b := by
  cases x <;> simp [bind, Except.bind]

theorem pure_ok_iff {a b : α} : (pure a : Except ε α) = .ok b ↔ a = b := by
  simp [pure, Except.pure]

theorem exists_of_isOk {x : Except ε α} (h : x.isOk) : ∃ a, x = .ok a := by
  cases x with
  | error e => cases h
  | ok a => exact ⟨a, rfl⟩

theorem toOption_eq_some_iff {x : Except ε α} {a : α} : x.toOption = some a ↔ x = .ok a := by
  cases x <;> simp [Except.toOption]

/-- Saying otherwise why a check fails does not let it succeed. -/
theorem mapError_ok_iff {ε' : Type} {f : ε → ε'} {x : Except ε α} {a : α} :
    x.mapError f = .ok a ↔ x = .ok a := by
  cases x <;> simp [Except.mapError]

theorem map_ok_iff {f : α → β} {x : Except ε α} {b : β} :
    x.map f = .ok b ↔ ∃ a, x = .ok a ∧ f a = b := by
  cases x <;> simp [Except.map]

/-- Two checks in a row succeed if and only if both do. -/
theorem seq_ok_iff {x : Except ε Unit} {y : Except ε β} {b : β} :
    (x >>= fun _ => y) = .ok b ↔ x = .ok () ∧ y = .ok b := by
  rw [bind_ok_iff]
  exact ⟨fun ⟨_, hx, hy⟩ => ⟨hx, hy⟩, fun ⟨hx, hy⟩ => ⟨(), hx, hy⟩⟩

theorem mapM_ok_iff {f : α → Except ε β} {l : List α} {m : List β} :
    l.mapM f = .ok m ↔ List.Forall₂ (fun a b => f a = .ok b) l m := by
  induction l generalizing m with
  | nil => rw [List.mapM_nil, pure_ok_iff, List.forall₂_nil_left_iff, eq_comm]
  | cons a l ih =>
    simp only [List.mapM_cons, bind_ok_iff, pure_ok_iff, List.forall₂_cons_left_iff, ih]
    exact ⟨fun ⟨b, hb, m', hm, e⟩ => ⟨b, m', hb, hm, e.symm⟩,
      fun ⟨b, m', hb, hm, e⟩ => ⟨b, hb, m', hm, e.symm⟩⟩

/-- Every element of a list is related to something if and only if the list is related to one. -/
theorem exists_forall₂_iff {R : α → β → Prop} {l : List α} :
    (∃ m, List.Forall₂ R l m) ↔ ∀ a ∈ l, ∃ b, R a b := by
  induction l with
  | nil => exact ⟨fun _ a ha => absurd ha List.not_mem_nil, fun _ => ⟨[], .nil⟩⟩
  | cons a l ih =>
    rw [List.forall_mem_cons, ← ih]
    constructor
    · rintro ⟨_, _ | ⟨hb, hm⟩⟩
      exact ⟨⟨_, hb⟩, ⟨_, hm⟩⟩
    · rintro ⟨⟨b, hb⟩, ⟨m, hm⟩⟩
      exact ⟨b :: m, .cons hb hm⟩

/-- Every element of a list gives a result if and only if the list gives a list of results. -/
theorem exists_mapM_ok_iff {f : α → Except ε β} {l : List α} :
    (∃ m, l.mapM f = .ok m) ↔ ∀ a ∈ l, ∃ b, f a = .ok b := by
  simp only [mapM_ok_iff, exists_forall₂_iff]

theorem forM_ok_iff {f : α → Except ε Unit} {l : List α} :
    l.forM f = .ok () ↔ ∀ a ∈ l, f a = .ok () := by
  induction l with
  | nil => exact ⟨fun _ a ha => absurd ha List.not_mem_nil, fun _ => rfl⟩
  | cons a l ih =>
    rw [List.forall_mem_cons, ← ih]
    exact seq_ok_iff

/-- What related elements have in common makes a common list. -/
theorem map_eq_map_of_forall₂ {R : α → β → Prop} {f : α → κ} {g : β → κ} {l : List α} {m : List β}
    (h : List.Forall₂ R l m) (hR : ∀ a b, R a b → f a = g b) : l.map f = m.map g := by
  induction h with
  | nil => rfl
  | cons hab _ ih => rw [List.map_cons, List.map_cons, hR _ _ hab, ih]

/-- Members of related lists are related. -/
theorem exists_of_mem_forall₂ {R : α → β → Prop} {l : List α} {m : List β}
    (h : List.Forall₂ R l m) {b : β} (hb : b ∈ m) : ∃ a ∈ l, R a b := by
  induction h with
  | nil => exact absurd hb List.not_mem_nil
  | cons hab _ ih =>
    rcases List.mem_cons.1 hb with rfl | hb
    · exact ⟨_, List.mem_cons_self, hab⟩
    · obtain ⟨a, ha, hab⟩ := ih hb
      exact ⟨a, List.mem_cons_of_mem _ ha, hab⟩

/-- A list which is related to two lists in a row is two lists in a row. -/
theorem exists_append_of_forall₂ {R : α → β → Prop} {l l' : List α} {m : List β}
    (h : List.Forall₂ R (l ++ l') m) :
    ∃ n n', n ++ n' = m ∧ List.Forall₂ R l n ∧ List.Forall₂ R l' n' :=
  ⟨m.take l.length, m.drop l.length, List.take_append_drop l.length m,
    (List.forall₂_take_append m l l' h.flip).flip, (List.forall₂_drop_append m l l' h.flip).flip⟩

/-- Lists which are related to a common one are related to each other. -/
theorem forall₂_of_forall₂ {R R' : α → β → Prop} {S : β → β → Prop}
    (hS : ∀ a b b', R a b → R' a b' → S b b') {l : List α} {m m' : List β}
    (h : List.Forall₂ R l m) (h' : List.Forall₂ R' l m') : List.Forall₂ S m m' := by
  induction h generalizing m' with
  | nil =>
    cases h'
    exact .nil
  | cons hab _ ih =>
    cases h' with
    | cons hab' h' => exact .cons (hS _ _ _ hab hab') (ih h')

/-- Related lists are the same if what elements are related to is determined by them. -/
theorem eq_of_forall₂ {R R' : α → β → Prop} (hR : ∀ a b b', R a b → R' a b' → b = b')
    {l : List α} {m m' : List β} (h : List.Forall₂ R l m) (h' : List.Forall₂ R' l m') :
    m = m' := by
  have heq := forall₂_of_forall₂ hR h h'
  rwa [List.forall₂_eq_eq_eq] at heq

/-- They are the same but for their order if the lists they are related to are. -/
theorem perm_of_forall₂ {R R' : α → β → Prop} (hR : ∀ a b b', R a b → R' a b' → b = b')
    {l l' : List α} {m m' : List β} (hl : l.Perm l') (h : List.Forall₂ R l m)
    (h' : List.Forall₂ R' l' m') : m.Perm m' := by
  obtain ⟨n, hn, hperm⟩ := List.perm_comp_forall₂ hl h'
  rwa [eq_of_forall₂ hR h hn]

/-- Rows, each of which must be right in itself and have a key which no row before it has, pass if
    and only if all of them are right and their keys are distinct. -/
theorem checkInOrder_nodup_iff {check : List ρ → ρ → Except ε Unit} (P : ρ → Prop) (key : ρ → κ)
    (hcheck : ∀ earlier row, check earlier row = .ok () ↔ P row ∧ key row ∉ earlier.map key)
    (rows : List ρ) :
    checkInOrder check [] rows = .ok () ↔ (∀ row ∈ rows, P row) ∧ (rows.map key).Nodup := by
  suffices h : ∀ earlier, checkInOrder check earlier rows = .ok () ↔
      (∀ row ∈ rows, P row) ∧ (rows.map key).Nodup ∧ ∀ row ∈ rows, key row ∉ earlier.map key by
    rw [h]
    simp
  induction rows with
  | nil => simp [checkInOrder]
  | cons row rows ih =>
    intro earlier
    rw [checkInOrder, seq_ok_iff, hcheck, ih]
    simp only [List.forall_mem_cons, List.map_cons, List.nodup_cons]
    simp only [List.mem_cons, not_or]
    -- The keys after the first row differ from it, which is the new key's part of distinctness.
    have hne : (∀ r ∈ rows, ¬key r = key row) ↔ key row ∉ rows.map key := by
      simp only [List.mem_map, not_exists, not_and]
    rw [← hne]
    constructor
    · rintro ⟨⟨hP, hk⟩, hPs, hn, hks⟩
      exact ⟨⟨hP, hPs⟩, ⟨fun r hr => (hks r hr).1, hn⟩, hk, fun r hr => (hks r hr).2⟩
    · rintro ⟨⟨hP, hPs⟩, ⟨hr, hn⟩, hk, hks⟩
      exact ⟨⟨hP, hk⟩, hPs, hn, fun r hmem => ⟨hr r hmem, hks r hmem⟩⟩

end CapacityExpansion
