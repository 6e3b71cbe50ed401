import CapacityExpansion.Proofs.Temporal.Acceptance
import CapacityExpansion.Proofs.Temporal.Links

/-!
# Neighbours

The neighbours of the timepoints of a stage, as a stage answers for them. What
comes after a timepoint and what comes before one are two views of one relation,
which does not leave the horizons. At the ends of a horizon its boundary says
what the neighbours are, so a walk from its first timepoint goes through the
horizon once, and then starts again or stops.

* `ResolvesStage.next_eq`, `ResolvesStage.previous_eq`: the neighbours at a
  position of a horizon;
* `ResolvesStage.next_iff_previous`: the two views agree;
* `ResolvesStage.walk_eq`: the walk along a horizon;
* `resolve_neighbours`: the neighbours in a resolved hierarchy.
-/

namespace CapacityExpansion.Temporal

open Tables

namespace Stage

/-- What comes after a neighbour: nothing is known after one of another stage. -/
def after (stage : Stage) (b : BalancingType) : Option Adjacent → Option Adjacent
  | some (.timepoint τ) => stage.next τ b
  | some (.linked _) => none
  | none => none

/-- Where a walk from the timepoint `τ` is after `n` steps, if it has not stopped before. -/
def walk (stage : Stage) (b : BalancingType) (τ : Nat) : (n : Nat) → Option Adjacent
  | 0 => some (.timepoint τ)
  | n + 1 => stage.after b (stage.walk b τ n)

end Stage

/-- The neighbours of the timepoints of a horizon are those in the horizon, and at its ends those
    which the boundary says. -/
structure Stage.Follows (stage : Stage) (b : BalancingType) (hz : Horizon) : Prop where
  ne_nil : hz.timepoints ≠ []
  nodup : hz.timepoints.Nodup
  inner : ∀ i τ υ, hz.timepoints[i]? = some τ → hz.timepoints[i + 1]? = some υ →
    stage.next τ b = some (.timepoint υ)
  ends : ∀ first ∈ hz.timepoints.head?, ∀ last ∈ hz.timepoints.getLast?,
    match hz.boundary with
    | .circular => stage.previous first b = some (.timepoint last) ∧
        stage.next last b = some (.timepoint first)
    | .linear => stage.previous first b = none ∧ stage.next last b = none
    | .linked => stage.previous first b = some (.linked 0) ∧ stage.next last b = none
  /-- A walk from the first timepoint goes through the horizon, then starts again or stops. -/
  walk : ∀ first ∈ hz.timepoints.head?, ∀ n, stage.walk b first n =
    (hz.timepoints[if hz.boundary = .circular then n % hz.timepoints.length else n]?).map .timepoint

variable {fragment p τ υ i : Nat} {t : Tables} {H : Hierarchy} {stage : Stage} {b : BalancingType}
  {tl : Timeline} {hz : Horizon}

/-! ## Positions -/

/-- Going on from a position of a horizon is going back from the next one, where the next one after
    the last is the first in a circular horizon. -/
theorem Horizon.exists_next_iff (hz : Horizon) :
    (∃ i, hz.timepoints[i]? = some τ ∧
      (hz.timepoints[i + 1]?.map .timepoint).or hz.exit = some (.timepoint υ)) ↔
    ∃ j, hz.timepoints[j]? = some υ ∧
      (if j = 0 then hz.entry else hz.timepoints[j - 1]?.map .timepoint) =
        some (.timepoint τ) := by
  constructor
  · rintro ⟨i, hi, hnext⟩
    cases e : hz.timepoints[i + 1]? with
    | some υ' =>
      rw [e, Option.map_some, Option.some_or, Option.some.injEq, Adjacent.timepoint.injEq] at hnext
      subst hnext
      exact ⟨i + 1, e, by simp [hi]⟩
    | none =>
      -- `i` is the last position, so the horizon is circular and goes on with its first one.
      rw [e, Option.map_none, Option.none_or, exit_eq_some_iff] at hnext
      have hlt := (List.getElem?_eq_some_iff.1 hi).1
      have hge := List.getElem?_eq_none_iff.1 e
      have hlast : hz.timepoints.getLast? = some τ := by
        rw [List.getLast?_eq_getElem?, show hz.timepoints.length - 1 = i by omega, hi]
      refine ⟨0, by rw [← List.head?_eq_getElem?, hnext.2], ?_⟩
      rw [if_pos rfl, entry_eq_some_iff]
      exact ⟨hnext.1, hlast⟩
  · rintro ⟨j, hj, hprev⟩
    cases j with
    | succ i =>
      rw [if_neg (Nat.succ_ne_zero i), Nat.add_sub_cancel] at hprev
      obtain ⟨τ', hi, e⟩ := Option.map_eq_some_iff.1 hprev
      cases e
      exact ⟨i, hi, by rw [hj, Option.map_some, Option.some_or]⟩
    | zero =>
      rw [if_pos rfl, entry_eq_some_iff, List.getLast?_eq_getElem?] at hprev
      have hlt := (List.getElem?_eq_some_iff.1 hj).1
      have hend : hz.timepoints[hz.timepoints.length - 1 + 1]? = none :=
        List.getElem?_eq_none (by omega)
      refine ⟨_, hprev.2, ?_⟩
      rw [hend, Option.map_none, Option.none_or, exit_eq_some_iff, List.head?_eq_getElem?]
      exact ⟨hprev.1, hj⟩

namespace Tables.ResolvesStage

theorem next_eq (h : t.ResolvesStage p stage) (ht : t.WellDeclared)
    (htl : stage.timeline? b = some tl) (hmem : hz ∈ tl.horizons)
    (hi : hz.timepoints[i]? = some τ) :
    stage.next τ b = (hz.timepoints[i + 1]?.map .timepoint).or hz.exit := by
  rw [Stage.next, h.link?_eq ht htl hmem hi, Option.bind_some]
  rfl

theorem previous_eq (h : t.ResolvesStage p stage) (ht : t.WellDeclared)
    (htl : stage.timeline? b = some tl) (hmem : hz ∈ tl.horizons)
    (hi : hz.timepoints[i]? = some τ) :
    stage.previous τ b = if i = 0 then hz.entry else hz.timepoints[i - 1]?.map .timepoint := by
  rw [Stage.previous, h.link?_eq ht htl hmem hi, Option.bind_some]
  rfl

/-! ## Neighbours of timepoints -/

/-- What comes after a timepoint is read off its position. -/
theorem next_eq_some_iff (h : t.ResolvesStage p stage) (ht : t.WellDeclared) {a : Adjacent} :
    stage.next τ b = some a ↔ ∃ tl, stage.timeline? b = some tl ∧ ∃ hz ∈ tl.horizons, ∃ i,
      hz.timepoints[i]? = some τ ∧ (hz.timepoints[i + 1]?.map .timepoint).or hz.exit = some a :=
  h.bind_link?_eq_some_iff ht Link.next

/-- What comes before a timepoint is read off its position. -/
theorem previous_eq_some_iff (h : t.ResolvesStage p stage) (ht : t.WellDeclared) {a : Adjacent} :
    stage.previous τ b = some a ↔ ∃ tl, stage.timeline? b = some tl ∧ ∃ hz ∈ tl.horizons, ∃ i,
      hz.timepoints[i]? = some τ ∧
        (if i = 0 then hz.entry else hz.timepoints[i - 1]?.map .timepoint) = some a :=
  h.bind_link?_eq_some_iff ht Link.previous

/-- A timepoint comes after another one if and only if that one comes before it. -/
theorem next_iff_previous (h : t.ResolvesStage p stage) (ht : t.WellDeclared) :
    stage.next τ b = some (.timepoint υ) ↔ stage.previous υ b = some (.timepoint τ) := by
  simp only [h.next_eq_some_iff ht, h.previous_eq_some_iff ht, Horizon.exists_next_iff]

/-- A timepoint and the one after it are in one horizon. -/
theorem exists_horizon_of_next (h : t.ResolvesStage p stage) (ht : t.WellDeclared)
    (hnext : stage.next τ b = some (.timepoint υ)) :
    ∃ tl, stage.timeline? b = some tl ∧
      ∃ hz ∈ tl.horizons, τ ∈ hz.timepoints ∧ υ ∈ hz.timepoints := by
  obtain ⟨tl, htl, hz, hmem, hpos⟩ := (h.next_eq_some_iff ht).1 hnext
  obtain ⟨j, hj, -⟩ := hz.exists_next_iff.1 hpos
  obtain ⟨i, hi, -⟩ := hpos
  exact ⟨tl, htl, hz, hmem, List.mem_of_getElem? hi, List.mem_of_getElem? hj⟩

/-! ## Walks -/

/-- A walk goes through the positions of a horizon, in a circular one over and over again. -/
theorem walk_eq (h : t.ResolvesStage p stage) (ht : t.WellDeclared)
    (htl : stage.timeline? b = some tl) (hmem : hz ∈ tl.horizons) (hne : hz.timepoints ≠ [])
    {first : Nat} (hfirst : first ∈ hz.timepoints.head?) (n : Nat) : stage.walk b first n =
      (hz.timepoints[if hz.boundary = .circular then n % hz.timepoints.length else n]?).map
        .timepoint := by
  rw [List.head?_eq_getElem?] at hfirst
  have hlen : 0 < hz.timepoints.length := List.length_pos_iff.2 hne
  induction n with
  | zero => rw [Nat.zero_mod, ite_self, hfirst, Option.map_some]; rfl
  | succ n ih =>
    rw [Stage.walk, ih]
    by_cases hb : hz.boundary = .circular
    · have hlt := Nat.mod_lt n hlen
      rw [if_pos hb, if_pos hb, List.getElem?_eq_getElem hlt, Option.map_some, Stage.after,
        h.next_eq ht htl hmem (List.getElem?_eq_getElem hlt)]
      -- The walk goes on to the next position, or from the last one to the first.
      rw [← Nat.mod_add_mod]
      rcases Nat.lt_or_ge (n % hz.timepoints.length + 1) hz.timepoints.length with hnext | hnext
      · rw [Nat.mod_eq_of_lt hnext, List.getElem?_eq_getElem hnext]
        rfl
      · rw [show n % hz.timepoints.length + 1 = hz.timepoints.length by omega, Nat.mod_self,
          List.getElem?_eq_none (Nat.le_refl _), Option.map_none, Option.none_or, Horizon.exit, hb,
          List.head?_eq_getElem?]
    · rw [if_neg hb, if_neg hb]
      cases e : hz.timepoints[n]? with
      | none =>
        rw [List.getElem?_eq_none (Nat.le_succ_of_le (List.getElem?_eq_none_iff.1 e))]
        rfl
      | some τ =>
        rw [Option.map_some, Stage.after, h.next_eq ht htl hmem e, Horizon.exit_of_ne_circular hb,
          Option.or_none]

theorem follows (h : t.ResolvesStage p stage) (ht : t.WellDeclared)
    (htl : stage.timeline? b = some tl) (hmem : hz ∈ tl.horizons) : stage.Follows b hz := by
  have hres := h.resolvesTimeline htl
  have hne := hres.ne_nil hz hmem
  refine ⟨hne, (hres.increasing ht hmem).nodup, fun i τ υ hi hnext => ?_,
    fun first hfirst last hlast => ?_, fun first => h.walk_eq ht htl hmem hne⟩
  · rw [h.next_eq ht htl hmem hi, hnext, Option.map_some, Option.some_or]
  · have hfirst' := hfirst
    have hlast' := hlast
    rw [Option.mem_def, List.head?_eq_getElem?] at hfirst'
    rw [Option.mem_def, List.getLast?_eq_getElem?] at hlast'
    have hend : hz.timepoints[hz.timepoints.length - 1 + 1]? = none :=
      List.getElem?_eq_none (by omega)
    rw [h.previous_eq ht htl hmem hfirst', if_pos rfl, h.next_eq ht htl hmem hlast', hend,
      Option.map_none, Option.none_or, Horizon.entry, Horizon.exit, hfirst, hlast]
    cases hz.boundary with
    | circular => exact ⟨rfl, rfl⟩
    | linear => exact ⟨rfl, rfl⟩
    | linked => exact ⟨rfl, rfl⟩

end Tables.ResolvesStage

/-- In a resolved hierarchy, the neighbours after and before timepoints are one relation, within
    horizons, and follow each horizon from its first timepoint to its last. -/
theorem resolve_neighbours (hok : (resolve fragment t).outcome = .ok H)
    (hmem : (p, stage) ∈ H.stages) (b : BalancingType) :
    (∀ τ υ, stage.next τ b = some (.timepoint υ) ↔ stage.previous υ b = some (.timepoint τ)) ∧
      (∀ τ υ, stage.next τ b = some (.timepoint υ) → ∃ tl, stage.timeline? b = some tl ∧
        ∃ hz ∈ tl.horizons, τ ∈ hz.timepoints ∧ υ ∈ hz.timepoints) ∧
      ∀ tl, stage.timeline? b = some tl → ∀ hz ∈ tl.horizons, stage.Follows b hz := by
  have hres := resolves_of_ok hok
  have ht := hres.declared
  have hstage := (hres.of_mem_stages hmem).2
  exact ⟨fun _ _ => hstage.next_iff_previous ht, fun _ _ => hstage.exists_horizon_of_next ht,
    fun _ htl _ hmem => hstage.follows ht htl hmem⟩

/-- The hours of the second day have neighbours in a circular horizon and in a linear one. -/
theorem resolve_neighbours_twoDays : ∃ H stage, (resolve 1 twoDays).outcome = .ok H ∧
    (2, stage) ∈ H.stages ∧
      (∀ τ υ, stage.next τ "hour" = some (.timepoint υ) ↔
        stage.previous υ "hour" = some (.timepoint τ)) ∧
      ∀ tl, stage.timeline? "hour" = some tl → ∀ hz ∈ tl.horizons, stage.Follows "hour" hz := by
  obtain ⟨H, hok, stage, hmem⟩ := exists_resolve_twoDays
  obtain ⟨hdual, -, hfollows⟩ := resolve_neighbours hok hmem "hour"
  exact ⟨H, stage, hok, hmem, hdual, hfollows⟩

end CapacityExpansion.Temporal
