import CapacityExpansion.Data.Checking

/-!
# Translations of computations

A *translation* takes computations of one kind to computations of another kind
and keeps how they are composed. To compare a computation with one that is put
together in the same way from other steps, it is enough to compare the steps.

* `Translation`: a translation;
* `Simulates`: what a computation becomes by a translation and a change of its
  value; `Simulates.bind`, `Simulates.mapM`, `Simulates.forM` and
  `Simulates.foldlM` for composed ones.
-/

namespace CapacityExpansion

/-- A translation of computations, which keeps values and composition. -/
structure Translation (m n : Type → Type) [Monad m] [Monad n] where
  /-- What a computation becomes. -/
  apply : {α : Type} → m α → n α
  apply_pure : ∀ {α : Type} (a : α), apply (pure a) = pure a
  apply_bind : ∀ {α β : Type} (x : m α) (k : α → m β),
    apply (x >>= k) = apply x >>= fun a => apply (k a)

variable {m n : Type → Type} [Monad m] [Monad n] [LawfulMonad n] {T : Translation m n}
  {α α' β β' : Type}

/-- A translated failure is one as well: it is that of a computation which has no values, so nothing
    comes after it. -/
theorem Translation.apply_error_bind {ε : Type} (T : Translation (Except ε) n) (e : ε)
    (l : α → n β) : T.apply (.error e) >>= l = T.apply (.error e) := by
  have hempty : ∀ γ : Type, T.apply (.error e : Except ε γ) =
      T.apply (.error e : Except ε Empty) >>= fun a => a.elim := fun γ =>
    (T.apply_bind (.error e : Except ε Empty) fun a => a.elim).trans
      (congrArg _ (funext fun a => a.elim))
  rw [hempty α, hempty β, bind_assoc]
  exact congrArg _ (funext fun a => a.elim)

/-- `y` is what becomes of `x` by a translation, with its value changed by `g`. -/
def Simulates (T : Translation m n) (g : α → α') (x : m α) (y : n α') : Prop := y = g <$> T.apply x

namespace Simulates

theorem pure {g : α → α'} {a : α} {a' : α'} (e : a' = g a) :
    Simulates T g (Pure.pure a) (Pure.pure a') := by
  rw [Simulates, T.apply_pure, map_pure, e]

/-- What comes second is compared for each value of what comes first. -/
theorem bind {g : α → α'} {h : β → β'} {x : m α} {y : n α'} {k : α → m β} {l : α' → n β'}
    (hx : Simulates T g x y) (hk : ∀ a, Simulates T h (k a) (l (g a))) :
    Simulates T h (x >>= k) (y >>= l) := by
  simp only [Simulates] at hx hk ⊢
  simp only [hx, T.apply_bind, map_bind, bind_map_left, hk]

/-- A value which is changed afterwards. -/
theorem map {g : α → α'} {h : β → β'} {x : m α} {y : n α'} {u : α → β} {v : α' → β'}
    (hx : Simulates T g x y) (huv : ∀ a, v (g a) = h (u a)) :
    Simulates T h (x >>= fun a => Pure.pure (u a)) (y >>= fun a => Pure.pure (v a)) :=
  hx.bind fun a => .pure (huv a)

section Lists

variable {γ γ' : Type} {u : γ → γ'} {l : List γ}

theorem mapM [LawfulMonad m] {g : α → α'} {k : γ → m α} {k' : γ' → n α'}
    (h : ∀ c ∈ l, Simulates T g (k c) (k' (u c))) :
    Simulates T (List.map g) (l.mapM k) ((l.map u).mapM k') := by
  induction l with
  | nil => exact .pure rfl
  | cons c l ih =>
    rw [List.forall_mem_cons] at h
    rw [List.map_cons, List.mapM_cons, List.mapM_cons]
    exact h.1.bind fun a => (ih h.2).map fun as => rfl

/-- The same elements on both sides. -/
theorem mapM_same [LawfulMonad m] {g : α → α'} {k : γ → m α} {k' : γ → n α'}
    (h : ∀ c ∈ l, Simulates T g (k c) (k' c)) :
    Simulates T (List.map g) (l.mapM k) (l.mapM k') := by
  have hmap := mapM (u := id) h
  rwa [List.map_id] at hmap

theorem forM {k : γ → m Unit} {k' : γ' → n Unit} (h : ∀ c ∈ l, Simulates T id (k c) (k' (u c))) :
    Simulates T id (l.forM k) ((l.map u).forM k') := by
  induction l with
  | nil => exact .pure rfl
  | cons c l ih =>
    rw [List.forall_mem_cons] at h
    exact h.1.bind fun _ => ih h.2

theorem forM_same {k : γ → m Unit} {k' : γ → n Unit} (h : ∀ c ∈ l, Simulates T id (k c) (k' c)) :
    Simulates T id (l.forM k) (l.forM k') := by
  have hmap := forM (u := id) h
  rwa [List.map_id] at hmap

theorem foldlM {g : α → α'} {k : α → γ → m α} {k' : α' → γ' → n α'}
    (h : ∀ a, ∀ c ∈ l, Simulates T g (k a c) (k' (g a) (u c))) (a : α) :
    Simulates T g (l.foldlM k a) ((l.map u).foldlM k' (g a)) := by
  induction l generalizing a with
  | nil => exact .pure rfl
  | cons c l ih =>
    simp only [List.forall_mem_cons] at h
    rw [List.map_cons, List.foldlM_cons, List.foldlM_cons]
    exact (h a).1.bind fun b => ih (fun b => (h b).2) b

theorem foldlM_same {g : α → α'} {k : α → γ → m α} {k' : α' → γ → n α'}
    (h : ∀ a, ∀ c ∈ l, Simulates T g (k a c) (k' (g a) c)) (a : α) :
    Simulates T g (l.foldlM k a) (l.foldlM k' (g a)) := by
  have hmap := foldlM (u := id) h a
  rwa [List.map_id] at hmap

end Lists

/-- What comes second is compared for the value of what comes first, if there is one. -/
theorem bind_ok {ε : Type} {T : Translation (Except ε) n} {g : α → α'} {h : β → β'}
    {x : Except ε α} {y : n α'} {k : α → Except ε β} {l : α' → n β'} (hx : Simulates T g x y)
    (hk : ∀ a, x = .ok a → Simulates T h (k a) (l (g a))) : Simulates T h (x >>= k) (y >>= l) := by
  cases x with
  | ok a =>
    have hy : y = Pure.pure (g a) := hx.trans (by rw [← map_pure g, ← T.apply_pure]; rfl)
    rw [hy, pure_bind]
    exact hk a rfl
  | error e =>
    have hy : y = g <$> T.apply (.error e) := hx
    change y >>= l = h <$> T.apply (.error e)
    rw [hy, bind_map_left, T.apply_error_bind, ← bind_pure_comp, T.apply_error_bind]

end Simulates

namespace Simulates

variable {ε ε' ρ ρ' : Type} {T : Translation (Except ε) (Except ε')} {rows : List ρ}
  {check : List ρ → ρ → Except ε Unit}

/-- Rows checked against those before them. -/
theorem checkInOrder {u : ρ → ρ'} {check' : List ρ' → ρ' → Except ε' Unit}
    (h : ∀ earlier, ∀ row ∈ rows, Simulates T id (check earlier row)
      (check' (earlier.map u) (u row))) (earlier : List ρ) :
    Simulates T id (checkInOrder check earlier rows)
      (checkInOrder check' (earlier.map u) (rows.map u)) := by
  induction rows generalizing earlier with
  | nil => exact .pure rfl
  | cons row rows ih =>
    simp only [List.forall_mem_cons] at h
    exact (h earlier).1.bind fun _ => ih (fun earlier => (h earlier).2) (row :: earlier)

theorem checkInOrder_same {check' : List ρ → ρ → Except ε' Unit}
    (h : ∀ earlier, ∀ row ∈ rows, Simulates T id (check earlier row) (check' earlier row))
    (earlier : List ρ) :
    Simulates T id (CapacityExpansion.checkInOrder check earlier rows)
      (CapacityExpansion.checkInOrder check' earlier rows) := by
  have hmap : Simulates T id (CapacityExpansion.checkInOrder check earlier rows)
      (CapacityExpansion.checkInOrder check' (earlier.map id) (rows.map id)) :=
    checkInOrder (fun earlier row hrow => by rw [List.map_id]; exact h earlier row hrow) earlier
  rwa [List.map_id, List.map_id] at hmap

end Simulates

end CapacityExpansion
