import CapacityExpansion.Proofs.Temporal.Stages

/-!
# Repeated rows

A row which puts a timepoint into a horizon may be given again. A copy which
comes after its row is found to say nothing new, so it changes nothing at all:
neither the hierarchy nor the fault which is found first, nor what is reported on
the way. All that resolving asks of the rows in use is which horizon they put a
timepoint into; that is the view under which they are compared.

* `Repeats`: a list with some elements repeated;
* `map_collectMembers_of_repeats`: the rows collected from it;
* `resolve_congr`: resolving depends on the horizons of timepoints only;
* `resolve_repeats`: resolving tables with repeated rows.
-/

namespace CapacityExpansion

/-! ## Computations under a view -/

section View

variable {α β γ δ ε η : Type} {g : β → γ} {g' : δ → η}

/-- What follows a result does not depend on more of it than the view. -/
theorem map_bind_congr {x x' : Except ε β} {k : β → Except ε δ} (h : x.map g = x'.map g)
    (hk : ∀ b b', g b = g b' → (k b).map g' = (k b').map g') :
    (x >>= k).map g' = (x' >>= k).map g' := by
  cases x with
  | error fault =>
    cases x' with
    | error fault' => rw [show fault = fault' from Except.error.inj h]
    | ok b' => cases h
  | ok b =>
    cases x' with
    | error fault' => cases h
    | ok b' => exact hk b b' (Except.ok.inj h)

theorem map_foldlM_congr {f : β → α → Except ε β}
    (hf : ∀ a b b', g b = g b' → (f b a).map g = (f b' a).map g) {b b' : β} (h : g b = g b')
    (l : List α) : (l.foldlM f b).map g = (l.foldlM f b').map g := by
  induction l generalizing b b' with
  | nil => exact congrArg Except.ok h
  | cons a l ih =>
    rw [List.foldlM_cons, List.foldlM_cons]
    exact map_bind_congr (hf a b b' h) fun _ _ => ih

end View

/-- A list with some of its elements repeated, anywhere after they have occurred. -/
inductive Repeats {α : Type} (l : List α) : List α → Prop
  | refl : Repeats l l
  | again {before after : List α} {a : α} : Repeats l (before ++ after) → a ∈ before →
      Repeats l (before ++ a :: after)

namespace Repeats

variable {α : Type} {l l' : List α}

theorem mem_iff (h : Repeats l l') (a : α) : a ∈ l ↔ a ∈ l' := by
  induction h with
  | refl => rfl
  | again _ hmem ih =>
    rw [ih, List.perm_middle.mem_iff, List.mem_cons]
    exact ⟨.inr, fun h => h.elim (fun e => List.mem_append_left _ (e ▸ hmem)) id⟩

theorem eq_nil_iff (h : Repeats l l') : l = [] ↔ l' = [] := by
  simp only [List.eq_nil_iff_forall_not_mem, h.mem_iff]

end Repeats

namespace Temporal

variable {rows rows' : List MemberRow} {place : Location} {t : Tables}

/-! ## The rows collected -/

theorem Consistent.of_subset (h : Consistent rows) (hsub : rows' ⊆ rows) : Consistent rows' :=
  fun _ _ _ _ _ _ h₁ h₂ => h (hsub h₁) (hsub h₂)

/-- Rows already there put no timepoint anywhere else. -/
theorem Consistent.horizonAmong_append (h : Consistent rows) (hsub : rows' ⊆ rows) :
    horizonAmong (rows ++ rows') = horizonAmong rows := by
  have hall : rows ++ rows' ⊆ rows := List.append_subset.2 ⟨fun _ => id, hsub⟩
  funext p s b τ
  refine Option.ext fun hz => ?_
  rw [(h.of_subset hall).horizonAmong_iff, h.horizonAmong_iff]
  exact ⟨fun hmem => hall hmem, List.mem_append_left _⟩

namespace Tables

/-- Adding a row looks at the horizons of timepoints only. -/
theorem map_addMember_congr (row : MemberRow) (h : horizonAmong rows = horizonAmong rows') :
    (t.addMember place rows row).map horizonAmong =
      (t.addMember place rows' row).map horizonAmong := by
  have hcheck : t.checkMember place rows row = t.checkMember place rows' row := by
    unfold checkMember
    rw [h]
  have hconcat : horizonAmong (rows ++ [row]) = horizonAmong (rows' ++ [row]) := by
    funext p s b τ
    have happ : ∀ l : List MemberRow, horizonAmong (l ++ [row]) p s b τ =
        (horizonAmong l p s b τ).or (horizonAmong [row] p s b τ) := fun l => by
      simp only [horizonAmong, List.find?_append, Option.map_or]
    rw [happ, happ, h]
  unfold addMember
  rw [hcheck]
  cases t.checkMember place rows' row with
  | error fault => rfl
  | ok => exact congrArg Except.ok hconcat

variable {ρ : Type} {rowsOf : ρ → Except Fault (List MemberRow)} {Fits : ρ → Prop}
  {expand : ρ → List MemberRow}

theorem collectMembers_append (rs rs' : List ρ) : t.collectMembers place rowsOf (rs ++ rs') =
    t.collectMembers place rowsOf rs >>=
      rs'.foldlM (fun soFar r => (do (← rowsOf r).foldlM (t.addMember place) soFar)) :=
  List.foldlM_append

/-- A row which has been collected may be collected again. -/
theorem map_collectMembers_concat (hrowsOf : ∀ r l, rowsOf r = .ok l ↔ Fits r ∧ l = expand r)
    {rs : List ρ} {r : ρ} (hr : r ∈ rs) :
    (t.collectMembers place rowsOf (rs ++ [r])).map horizonAmong =
      (t.collectMembers place rowsOf rs).map horizonAmong := by
  cases e : t.collectMembers place rowsOf rs with
  | error fault =>
    rw [collectMembers_append, e]
    rfl
  | ok out =>
    obtain ⟨rfl, hfits, hhorizon, hcons⟩ := (collectMembers_ok_iff hrowsOf).1 e
    have hsub : expand r ⊆ rs.flatMap expand := fun _ hmem => List.mem_flatMap.2 ⟨r, hr, hmem⟩
    have hall : (rs ++ [r]).flatMap expand = rs.flatMap expand ++ expand r := by
      rw [List.flatMap_append, List.flatMap_singleton]
    have hok : t.collectMembers place rowsOf (rs ++ [r]) = .ok ((rs ++ [r]).flatMap expand) := by
      refine (collectMembers_ok_iff hrowsOf).2 ⟨rfl, ?_, ?_, ?_⟩
      · exact List.forall_mem_append.2 ⟨hfits, List.forall_mem_singleton.2 (hfits r hr)⟩
      · rw [hall]
        exact List.forall_mem_append.2 ⟨hhorizon, fun row hmem => hhorizon row (hsub hmem)⟩
      · rw [hall]
        exact hcons.of_subset (List.append_subset.2 ⟨fun _ => id, hsub⟩)
    rw [hok, hall]
    exact congrArg Except.ok (hcons.horizonAmong_append hsub)

/-- Repeated rows are collected to the same end. -/
theorem map_collectMembers_of_repeats (hrowsOf : ∀ r l, rowsOf r = .ok l ↔ Fits r ∧ l = expand r)
    {rs rs' : List ρ} (h : Repeats rs rs') :
    (t.collectMembers place rowsOf rs').map horizonAmong =
      (t.collectMembers place rowsOf rs).map horizonAmong := by
  induction h with
  | refl => rfl
  | @again before after r _ hmem ih =>
    rw [← ih, List.append_cons, collectMembers_append (before ++ [r]) after,
      collectMembers_append before after]
    -- Both have collected the same before what follows the copy.
    refine map_bind_congr (map_collectMembers_concat hrowsOf hmem) fun _ _ hview => ?_
    refine map_foldlM_congr (fun r' soFar soFar' hview => ?_) hview after
    cases rowsOf r' with
    | error fault => rfl
    | ok l => exact map_foldlM_congr (fun row _ _ => map_addMember_congr row) hview l

/-- The rows in use may be repeated. -/
theorem map_membership_of_repeats (ht : t.WellDeclared) {members : List MemberRow}
    {spans : List SpanRow} (hmembers : Repeats t.members members) (hspans : Repeats t.spans spans) :
    ({ t with members, spans }.membership place).map horizonAmong =
      (t.membership place).map horizonAmong := by
  unfold membership
  split
  · next hnil =>
    rw [show t.spans = [] from hspans.eq_nil_iff.2 hnil]
    exact map_collectMembers_of_repeats (fun _ _ => rowsOfMember_ok_iff) hmembers
  · next hne =>
    have hne' : t.spans ≠ [] := fun e => hne (hspans.eq_nil_iff.1 e)
    split
    · next hnil => exact absurd hnil hne'
    · exact map_collectMembers_of_repeats (fun _ _ => rowsOfSpan_ok_iff ht) hspans

end Tables

/-! ## What follows -/

variable {members : List MemberRow} {spans : List SpanRow}

theorem liftM_bind_congr {β γ δ : Type} {g : β → γ} {x x' : Except Fault β} {k k' : β → Resolving δ}
    (h : x.map g = x'.map g) (hk : ∀ b b', x' = .ok b' → g b = g b' → k b = k' b') :
    (liftM x >>= k) = liftM x' >>= k' := by
  cases x with
  | error fault =>
    cases x' with
    | error fault' =>
      rw [show fault = fault' from Except.error.inj h]
      rfl
    | ok b' => cases h
  | ok b =>
    cases x' with
    | error fault' => cases h
    | ok b' => exact hk b b' rfl (Except.ok.inj h)

/-- Resolving looks at the horizons of timepoints only. -/
theorem resolveSubproblems_congr (h : horizonAmong rows = horizonAmong rows')
    {previous : Option Nat} (l : List Nat) :
    resolveSubproblems place { t with members, spans } rows previous l =
      resolveSubproblems place t rows' previous l := by
  have htimeline : ∀ place, resolveTimeline place { t with members, spans } rows =
      resolveTimeline place t rows' := fun place => by
    unfold resolveTimeline orderedHorizons placed
    rw [h]
    rfl
  have hstage : ∀ place, resolveStage place { t with members, spans } rows =
      resolveStage place t rows' := fun place => by
    unfold resolveStage
    simp only [htimeline]
    rfl
  induction l generalizing previous with
  | nil => rfl
  | cons p l ih =>
    unfold resolveSubproblems resolveSubproblem
    simp only [hstage, ih]
    rfl

/-- Tables which collect rows with the same horizons of timepoints are resolved to the same end. -/
theorem resolve_congr (h : t.WellDeclared → ∀ place,
      ({ t with members, spans }.membership place).map horizonAmong =
        (t.membership place).map horizonAmong) (fragment : Nat) :
    resolve fragment { t with members, spans } = resolve fragment t := by
  suffices hsame : resolving fragment { t with members, spans } = resolving fragment t by
    rw [resolve, hsame, resolve]
  have hdeclared : ({ t with members, spans } : Tables).checkDeclarations (.ofFragment fragment) =
    t.checkDeclarations (.ofFragment fragment) := rfl
  refine liftM_bind_congr (congrArg (Except.map id) hdeclared) fun _ _ hok _ => ?_
  have ht := Tables.checkDeclarations_ok_iff.1 hok
  refine liftM_bind_congr (h ht _) fun rows rows' _ hview => ?_
  rw [resolveSubproblems_congr hview]
  rfl

/-- Rows which put timepoints into horizons may be given again: once a row has been given, a copy of
    it changes neither the outcome, be it a hierarchy or a fault, nor the demotions found. -/
theorem resolve_repeats (hmembers : Repeats t.members members) (hspans : Repeats t.spans spans)
    (fragment : Nat) : resolve fragment { t with members, spans } = resolve fragment t :=
  resolve_congr (fun ht _ => Tables.map_membership_of_repeats ht hmembers hspans) fragment

end Temporal

end CapacityExpansion
