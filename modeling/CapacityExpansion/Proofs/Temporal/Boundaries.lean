import CapacityExpansion.Proofs.Temporal.Horizons
import CapacityExpansion.Proofs.Temporal.Reporting

/-!
# Boundaries which apply

Of the horizons of a timeline only the first one can be linked, and only to a
previous subproblem. A linked boundary is therefore treated as a linear one on
every other horizon, and every other boundary applies as it is declared. If
there is a previous subproblem, it must have timepoints to link to.

* `settled`: the horizons with the boundaries which apply;
* `settleBoundaries_ok_iff`, `resolveTimeline_ok_iff`: when there is a timeline,
  and what it is.
-/

namespace CapacityExpansion.Temporal

/-- The boundary which applies to a horizon, the first one of its timeline or not, given whether
    there is a previous subproblem. -/
def Boundary.applied (isFirst hasPrevious : Bool) : Boundary → Boundary
  | .linked => if isFirst && hasPrevious then .linked else .linear
  | boundary => boundary

/-- A horizon with the boundary which applies to it. -/
def Horizon.settled (isFirst hasPrevious : Bool) (hz : Horizon) : Horizon :=
  { hz with boundary := hz.declared.applied isFirst hasPrevious }

/-- Horizons in order with the boundaries which apply to them, given whether the first of them is
    the first one of its timeline. -/
def settled (isFirst hasPrevious : Bool) : List Horizon → List Horizon
  | [] => []
  | hz :: rest => hz.settled isFirst hasPrevious :: settled false hasPrevious rest

variable {place : Location} {source : Option Source} {isFirst hasPrevious : Bool}
  {declared boundary : Boundary} {b : BalancingType} {hz : Horizon} {hs hs' : List Horizon}

theorem applied_eq_linked_iff : declared.applied isFirst hasPrevious = .linked ↔
    declared = .linked ∧ isFirst ∧ hasPrevious := by
  cases declared <;> cases isFirst <;> cases hasPrevious <;> decide

theorem applied_of_ne_linked (h : declared ≠ .linked) :
    declared.applied isFirst hasPrevious = declared := by
  cases declared <;> first | rfl | exact absurd rfl h

theorem settled_false (hs : List Horizon) :
    settled false hasPrevious hs = hs.map (Horizon.settled false hasPrevious) := by
  induction hs with
  | nil => rfl
  | cons hz rest ih => rw [settled, ih, List.map_cons]

/-- Every horizon is settled as the first one or as a further one. -/
theorem exists_of_mem_settled (h : hz ∈ settled isFirst hasPrevious hs) :
    ∃ hz' ∈ hs, ∃ isFirst', hz = hz'.settled isFirst' hasPrevious := by
  cases hs with
  | nil => exact absurd h List.not_mem_nil
  | cons first rest =>
    rw [settled, settled_false, List.mem_cons, List.mem_map] at h
    rcases h with rfl | ⟨hz', hmem, rfl⟩
    · exact ⟨first, List.mem_cons_self, isFirst, rfl⟩
    · exact ⟨hz', List.mem_cons_of_mem _ hmem, false, rfl⟩

/-- Settling boundaries changes nothing else. -/
theorem map_settled {α : Type} {f : Horizon → α}
    (hf : ∀ hz isFirst, f (hz.settled isFirst hasPrevious) = f hz) (hs : List Horizon) :
    (settled isFirst hasPrevious hs).map f = hs.map f := by
  induction hs generalizing isFirst with
  | nil => rfl
  | cons hz rest ih => rw [settled, List.map_cons, List.map_cons, hf, ih]

/-! ## Settling -/

theorem appends_effectiveBoundary :
    (effectiveBoundary place source isFirst declared).Appends := by
  unfold effectiveBoundary
  split
  · exact Resolving.appends_pure _
  · split
    · exact (Resolving.appends_report _).bind fun _ => Resolving.appends_pure _
    · split
      · exact (Resolving.appends_report _).bind fun _ => Resolving.appends_pure _
      · split
        · exact Resolving.appends_throw _
        · exact Resolving.appends_pure _

/-- A boundary applies unless it links to a previous subproblem with nothing to link to. -/
theorem effectiveBoundary_ok_iff :
    (effectiveBoundary place source isFirst declared).outcome = .ok boundary ↔
      (declared = .linked → isFirst → ∀ src ∈ source, src.linked ≠ []) ∧
        boundary = declared.applied isFirst source.isSome := by
  unfold effectiveBoundary
  -- Only a linked boundary depends on where it is, and only the first one on the source.
  by_cases hd : declared = .linked
  · subst hd
    cases isFirst with
    | false =>
      rw [if_neg (by simp), if_pos (by rfl),
        Resolving.outcome_bind fun _ => Resolving.appends_pure _]
      exact ⟨fun h => ⟨nofun, (Except.ok.inj h).symm⟩, fun h => congrArg Except.ok h.2.symm⟩
    | true =>
      rw [if_neg (by simp), if_neg (by simp)]
      cases source with
      | none =>
        rw [Resolving.outcome_bind fun _ => Resolving.appends_pure _]
        exact ⟨fun h => ⟨nofun, (Except.ok.inj h).symm⟩, fun h => congrArg Except.ok h.2.symm⟩
      | some src =>
        obtain ⟨q, linked⟩ := src
        cases linked with
        | nil => simp [Resolving.outcome_throw]
        | cons l linked => simp [Resolving.outcome_pure, Boundary.applied, eq_comm]
  · rw [if_pos hd, Resolving.outcome_pure, Except.ok.injEq, applied_of_ne_linked hd]
    exact ⟨fun h => ⟨fun h => absurd h hd, h.symm⟩, fun h => h.2.symm⟩

theorem appends_settleBoundaries : (settleBoundaries place b source isFirst hs).Appends := by
  induction hs generalizing isFirst with
  | nil => exact Resolving.appends_pure _
  | cons hz rest ih =>
    exact appends_effectiveBoundary.bind fun _ => ih.bind fun _ => Resolving.appends_pure _

/-- The boundaries of a timeline apply unless the first one links to a previous subproblem with
    nothing to link to. -/
theorem settleBoundaries_ok_iff :
    (settleBoundaries place b source isFirst hs).outcome = .ok hs' ↔
      (isFirst → ∀ hz ∈ hs.head?, hz.declared = .linked → ∀ src ∈ source, src.linked ≠ []) ∧
        hs' = settled isFirst source.isSome hs := by
  induction hs generalizing isFirst hs' with
  | nil => simp [settleBoundaries, settled, Resolving.outcome_pure, eq_comm]
  | cons hz rest ih =>
    have hrest : ∀ boundary, (do
        let rest ← settleBoundaries place b source false rest
        return { hz with boundary } :: rest : Resolving (List Horizon)).Appends :=
      fun _ => appends_settleBoundaries.bind fun _ => Resolving.appends_pure _
    rw [settleBoundaries, Resolving.outcome_bind hrest, bind_ok_iff]
    simp only [Resolving.outcome_bind fun _ => Resolving.appends_pure _, bind_ok_iff,
      Resolving.outcome_pure, Except.ok.injEq, effectiveBoundary_ok_iff, ih]
    constructor
    · rintro ⟨_, ⟨hlink, rfl⟩, _, ⟨-, rfl⟩, rfl⟩
      refine ⟨fun hfirst hz' hmem hd => ?_, rfl⟩
      cases hmem
      exact hlink hd hfirst
    · rintro ⟨hlink, rfl⟩
      exact ⟨_, ⟨fun hd hfirst => hlink hfirst hz rfl hd, rfl⟩, _, ⟨nofun, rfl⟩, rfl⟩

/-! ## Timelines -/

variable {t : Tables} {rows : List MemberRow} {p s : Nat} {tps : List Timepoint} {tl : Timeline}

theorem appends_resolveTimeline : (resolveTimeline place t rows source p s tps b).Appends :=
  (Resolving.appends_lift _).bind fun _ =>
    appends_settleBoundaries.bind fun _ => Resolving.appends_pure _

/-- The timeline of some horizons in order. -/
def timelineOf (b : BalancingType) (hasPrevious : Bool) (hs : List Horizon) : Timeline where
  balancingType := b
  horizons := settled true hasPrevious hs
  links := (settled true hasPrevious hs).flatMap Horizon.links

/-- There is a timeline if and only if the horizons can be put in order, and the first one does not
    link to a previous subproblem with nothing to link to. -/
theorem resolveTimeline_ok_iff :
    (resolveTimeline place t rows source p s tps b).outcome = .ok tl ↔
      ∃ hs, orderedHorizons place rows p s b tps (t.horizonsOf p b) = .ok hs ∧
        (∀ hz ∈ hs.head?, hz.declared = .linked → ∀ src ∈ source, src.linked ≠ []) ∧
        tl = timelineOf b source.isSome hs := by
  have hsettle : ∀ hs, (do
      let horizons ← settleBoundaries place b source true hs
      return { balancingType := b, horizons, links := horizons.flatMap Horizon.links } :
        Resolving Timeline).Appends :=
    fun _ => appends_settleBoundaries.bind fun _ => Resolving.appends_pure _
  rw [resolveTimeline, Resolving.outcome_bind hsettle, Resolving.outcome_lift, bind_ok_iff]
  refine exists_congr fun hs => and_congr_right fun _ => ?_
  rw [Resolving.outcome_bind fun _ => Resolving.appends_pure _, bind_ok_iff]
  simp only [settleBoundaries_ok_iff, Resolving.outcome_pure, Except.ok.injEq]
  constructor
  · rintro ⟨_, ⟨hlink, rfl⟩, rfl⟩
    exact ⟨hlink trivial, rfl⟩
  · rintro ⟨hlink, rfl⟩
    exact ⟨_, ⟨fun _ => hlink, rfl⟩, rfl⟩

end CapacityExpansion.Temporal
