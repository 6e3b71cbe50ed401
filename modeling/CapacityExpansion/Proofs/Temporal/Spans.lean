import CapacityExpansion.Proofs.Temporal.Repetition

/-!
# Spans and the rows they stand for

A span puts all timepoints of its stage from a first to a last one into a
horizon. It stands for the rows which put these timepoints there one by one, in
the order of the timepoints; which numbers the timepoints have does not matter,
so there may be gaps between them.

Once there is a span, rows of single timepoints are not looked at. And tables
whose spans are written out, each in its place, are resolved to the same end as
the tables with the spans, since the same rows are then collected one after the
other: both have the same hierarchy, or the same fault at the same place.

* `Tables.spelledOut`: the tables with their spans written out;
* `collectMembers_eq_foldlM`: collecting is adding what the rows stand for;
* `resolve_spans`: what the tables are resolved to.
-/

namespace CapacityExpansion.Temporal

namespace Tables

/-- The rows of single timepoints which a span stands for: one for each timepoint of the stage from
    the first to the last one of the span, in the order of the timepoints. -/
def rowsBetween (t : Tables) (row : SpanRow) : List MemberRow :=
  ((t.timepointsOf row.subproblem row.stage).filter fun tp =>
      row.first ≤ tp.id ∧ tp.id ≤ row.last).map fun tp =>
    ⟨row.subproblem, row.stage, tp.id, row.balancingType, row.horizon⟩

/-- The tables with their spans written out, span by span, in the place of their other rows of
    single timepoints. -/
def spelledOut (t : Tables) : Tables :=
  { t with members := t.spans.flatMap t.rowsBetween, spans := [] }

variable {t : Tables} {place : Location} {row : SpanRow}

/-- What lies between the ends of a span is what it is expanded to. -/
theorem expansion_eq_rowsBetween (ht : t.WellDeclared) (hrow : t.SpanFits row) :
    t.expansion row = t.rowsBetween row := by
  obtain ⟨-, hfirst, hlast, hle⟩ := hrow
  have hslice := slice_eq_filter (increasing_timepoints ht row.subproblem row.stage)
    (mem_timepoints_iff.2 hfirst) (mem_timepoints_iff.2 hlast) hle
  unfold expansion rowsBetween
  dsimp only
  rw [hslice, List.filter_map, List.map_map]
  rfl

/-! ## Collecting -/

/-- Collecting rows which fit adds what they stand for, one after the other. -/
theorem collectMembers_eq_foldlM {ρ : Type} {rowsOf : ρ → Except Fault (List MemberRow)}
    {expand : ρ → List MemberRow} {rs : List ρ} (h : ∀ r ∈ rs, rowsOf r = .ok (expand r)) :
    t.collectMembers place rowsOf rs = (rs.flatMap expand).foldlM (t.addMember place) [] := by
  -- Each row is checked against all those before it, so the induction starts from any of them.
  suffices hfrom : ∀ rows : List MemberRow,
      rs.foldlM (fun soFar r => do (← rowsOf r).foldlM (t.addMember place) soFar) rows =
        (rs.flatMap expand).foldlM (t.addMember place) rows from hfrom []
  induction rs with
  | nil => exact fun _ => rfl
  | cons r rs ih =>
    intro rows
    rw [List.forall_mem_cons] at h
    rw [List.foldlM_cons, h.1, List.flatMap_cons, List.foldlM_append]
    exact congrArg _ (funext (ih h.2))

/-- Spans written out fit, as they are. -/
theorem rowsOfMember_of_mem (ht : t.WellDeclared) (hfits : ∀ row ∈ t.spans, t.SpanFits row)
    {member : MemberRow} (hmem : member ∈ t.spans.flatMap t.expansion) :
    t.rowsOfMember place member = .ok [member] := by
  obtain ⟨row, hrow, hmem⟩ := List.mem_flatMap.1 hmem
  obtain ⟨e, hτ, -⟩ := (mem_expansion_iff ht (hfits row hrow)).1 hmem
  have hstage := (hfits row hrow).1
  rw [e] at hstage
  exact rowsOfMember_ok_iff.2 ⟨⟨hstage, hτ⟩, rfl⟩

/-- With the spans written out, the same rows are collected. -/
theorem membership_spelledOut (ht : t.WellDeclared) (hne : t.spans ≠ [])
    (hfits : ∀ row ∈ t.spans, t.SpanFits row) :
    t.spelledOut.membership place = t.membership place := by
  have hrows : t.spans.flatMap t.rowsBetween = t.spans.flatMap t.expansion :=
    List.flatMap_congr fun row hrow => (expansion_eq_rowsBetween ht (hfits row hrow)).symm
  have hspans : t.membership place =
      (t.spans.flatMap t.expansion).foldlM (t.addMember place) [] := by
    unfold membership
    split
    · next hnil => exact absurd hnil hne
    · exact collectMembers_eq_foldlM fun row hrow =>
        (rowsOfSpan_ok_iff ht).2 ⟨hfits row hrow, rfl⟩
  -- What is declared is the same, so rows are checked and added as in the tables with the spans.
  change t.collectMembers place (t.rowsOfMember place) (t.spans.flatMap t.rowsBetween) = _
  rw [hrows, collectMembers_eq_foldlM fun _ hmem => rowsOfMember_of_mem ht hfits hmem, hspans,
    List.flatMap_singleton']

end Tables

/-- Tables with spans are resolved without regard to rows of single timepoints. If the ends of each
    span are timepoints of a declared stage, in this order, the tables with the spans written out
    are resolved to the same end: the same hierarchy or the same fault, with the same demotions. -/
theorem resolve_spans {t : Tables} (hne : t.spans ≠ []) (fragment : Nat) :
    (∀ members, resolve fragment { t with members } = resolve fragment t) ∧
      ((∀ row ∈ t.spans, t.SpanFits row) →
        resolve fragment t.spelledOut = resolve fragment t) := by
  refine ⟨fun members => ?_, fun hfits => ?_⟩
  · have hmembership : ∀ place,
        ({ t with members } : Tables).membership place = t.membership place := fun place => by
      unfold Tables.membership
      split
      · next hnil => exact absurd hnil hne
      · rfl
    exact resolve_congr (fun _ place => congrArg _ (hmembership place)) fragment
  · exact resolve_congr (fun ht _ => congrArg _ (Tables.membership_spelledOut ht hne hfits))
      fragment

/-- A day of three timepoints, which are not numbered one after the other. The morning has the first
    two of them, the evening those from the timepoint `start`. -/
def gappedDay (start : Nat) : Tables :=
  let timepoint (τ : Nat) : TimepointRow := ⟨1, 1, ⟨τ, 2030, 1.0, 1.0, none, none, none⟩⟩
  { periods := [⟨2030, 1.0, 10.0⟩]
    subproblems := [1]
    timepoints := [timepoint 20, timepoint 3, timepoint 7]
    horizons := [⟨1, "day", "morning", .linear⟩, ⟨1, "day", "evening", .circular⟩]
    spans := [⟨1, 1, "day", "morning", 3, 7⟩, ⟨1, 1, "day", "evening", start, 20⟩] }

/-- An evening of one timepoint gives a hierarchy, and an evening which begins in the morning a
    fault, whether the spans are written out or not. -/
theorem resolve_spans_gappedDay :
    (∃ H, (resolve 1 (gappedDay 20)).outcome = .ok H ∧
      (resolve 1 (gappedDay 20).spelledOut).outcome = .ok H) ∧
    ∃ fault, (resolve 1 (gappedDay 7)).outcome = .error fault ∧
      (resolve 1 (gappedDay 7).spelledOut).outcome = .error fault ∧
      fault.defect = .duplicateHorizonMembership 7 "day" "morning" "evening" := by
  have hfits : ∀ start, start = 7 ∨ start = 20 →
      ∀ row ∈ (gappedDay start).spans, (gappedDay start).SpanFits row := by
    unfold Tables.SpanFits Tables.IsStage Tables.IsTimepoint
    rintro start (rfl | rfl) <;> decide
  have hsame : ∀ start, start = 7 ∨ start = 20 →
      resolve 1 (gappedDay start).spelledOut = resolve 1 (gappedDay start) := fun start hstart =>
    (resolve_spans (List.cons_ne_nil _ _) 1).2 (hfits start hstart)
  rw [hsame 7 (.inl rfl), hsame 20 (.inr rfl)]
  let place := (((Location.ofFragment 1).inSubproblem 1).inStage 1).inHorizon "day" "evening"
  refine ⟨?_, ⟨place, .duplicateHorizonMembership 7 "day" "morning" "evening"⟩, ?_⟩
  · have hisOk : (resolve 1 (gappedDay 20)).outcome.isOk := by decide
    obtain ⟨H, hok⟩ := exists_of_isOk hisOk
    exact ⟨H, hok, hok⟩
  · exact ⟨by decide, by decide, rfl⟩

end CapacityExpansion.Temporal
