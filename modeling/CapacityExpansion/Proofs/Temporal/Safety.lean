import CapacityExpansion.Proofs.Temporal.Carryover
import CapacityExpansion.Proofs.Temporal.Guarded
import CapacityExpansion.Proofs.Temporal.Horizons
import CapacityExpansion.Proofs.Temporal.Links
import CapacityExpansion.Proofs.Temporal.Membership

/-!
# Safety of resolving

Guarded resolving is never stopped: whatever the tables are, it gives what
resolving gives. Each operation with a range is protected by something found out
before, often in another step:

* indices are followed by larger ones, so they are not the largest
  (`Guarded.brokenRule?_eq`);
* the ends of a span are positions in the stage, in order
  (`Guarded.simulates_rowsOfSpan`);
* a horizon has a timepoint, and its positions are positions in the stage
  (`Guarded.simulates_horizonOf`), so there are links (`Guarded.links_eq_ok_iff`).

The main result is `resolveGuarded_eq_ok`.
-/

namespace CapacityExpansion.Temporal

theorem neighboursM_eq_ok {α : Type} {r' : α → α → Except Panic Bool} {r : α → α → Bool}
    {l : List α} (h : l.IsChain fun a b => r' a b = .ok (r a b)) :
    neighboursM r' l = .ok (neighbours r l) := by
  induction l with
  | nil => rfl
  | cons a l ih =>
    cases l with
    | nil => rfl
    | cons b l =>
      rw [List.isChain_cons_cons] at h
      rw [neighboursM, neighbours, h.1]
      cases r a b with
      | false => rfl
      | true => exact ih h.2

namespace Guarded

variable {t : Tables} {place : Location} {rows : List MemberRow} {p s : Nat} {b : BalancingType}

theorem simulates_check {α : Type} (x : Except Fault α) : Simulates ofCheck id x (liftM x) :=
  (id_map _).symm

theorem simulates_lift {α : Type} (x : Except Fault α) :
    Simulates ofResolving id (liftM x) (ofCheck.apply x) := by
  cases x <;> rfl

/-- What follows a check may rely on its success. -/
theorem simulates_lift_bind {α β β' : Type} {x : Except Fault α} {y : Guarded α}
    {k : α → Resolving β} {l : α → Guarded β'} {h : β → β'} (hx : Simulates ofCheck id x y)
    (hk : ∀ a, x = .ok a → Simulates ofResolving h (k a) (l a)) :
    Simulates ofResolving h (liftM x >>= k) (y >>= l) := by
  rw [Simulates, id_map] at hx
  rw [hx]
  cases x with
  | error fault => rfl
  | ok a => exact hk a rfl

/-! ## Timepoints carried over -/

/-- An index below another one is not the largest. -/
theorem indexAfter_of_lt {i j : Int32} (h : i < j) : indexAfter i = .ok (i + 1) := by
  refine indexAfter_eq_ok_iff.2 ⟨fun e => ?_, rfl⟩
  rw [Int32.lt_iff_toInt_lt, e] at h
  exact absurd j.toInt_le (Int.not_le.2 h)

/-- Successors are formed only once the indices are known to increase. -/
theorem brokenRule?_eq (indices : List Int32) :
    brokenRule? indices = .ok (Temporal.brokenRule? indices) := by
  unfold brokenRule? Temporal.brokenRule?
  cases indices.any (0 < ·) with
  | true => rfl
  | false =>
    cases hlt : neighbours (fun a b => decide (a < b)) indices with
    | false => rfl
    | true =>
      have hsucc : neighboursM (fun a b => return (← indexAfter a) == b) indices =
          .ok (neighbours (fun a b => a + 1 == b) indices) :=
        neighboursM_eq_ok ((neighbours_iff.1 hlt).imp fun a b h => by
          rw [indexAfter_of_lt (of_decide_eq_true h)]
          rfl)
      rw [hsucc]
      cases neighbours (fun a b => a + 1 == b) indices with
      | false => rfl
      | true =>
        change (if indices.getLast? ≠ some 0 then pure (some IndexRule.endsAtZero) else pure none) =
          Except.ok (if indices.getLast? ≠ some 0 then some IndexRule.endsAtZero else none)
        split <;> rfl

theorem simulates_checkedCarriedOver (timepoints : List Timepoint) :
    Simulates ofCheck id (Temporal.checkedCarriedOver place timepoints)
      (checkedCarriedOver place timepoints) := by
  unfold checkedCarriedOver Temporal.checkedCarriedOver
  dsimp only
  rw [brokenRule?_eq]
  cases timepoints.filterMap Timepoint.linkedIndex with
  | nil => rfl
  | cons i indices =>
    cases Temporal.brokenRule? (i :: indices) with
    | none => rfl
    | some rule => rfl

/-! ## Membership -/

/-- The ends of a span are positions in the stage, and the first one does not come after the last
    one. -/
theorem simulates_rowsOfSpan (row : SpanRow) :
    Simulates ofCheck id (t.rowsOfSpan place row) (rowsOfSpan t place row) := by
  refine (simulates_check _).bind fun _ => (simulates_check _).bind fun first =>
    (simulates_check _).bind_ok fun last hlast => (simulates_check _).bind_ok fun _ hle => ?_
  obtain ⟨hmem, rfl⟩ := Tables.positionOf_ok_iff.1 hlast
  rw [require_ok_iff] at hle
  dsimp only [id]
  rw [spanLength_eq_ok_iff.2 ⟨hle, List.idxOf_lt_length_of_mem hmem, rfl⟩]
  exact .pure rfl

theorem simulates_membership : Simulates ofCheck id (t.membership place) (membership t place) := by
  unfold membership Tables.membership
  cases t.spans with
  | nil => exact simulates_check _
  | cons row rest =>
    have hrow : ∀ soFar row, Simulates ofCheck id
        (t.rowsOfSpan place row >>= fun rows => rows.foldlM (t.addMember place) soFar)
        (rowsOfSpan t place row >>= fun rows =>
          rows.foldlM (fun rows r => ofCheck.apply (t.addMember place rows r)) soFar) :=
      fun soFar row => (simulates_rowsOfSpan row).bind fun rows =>
        .foldlM_same (g := id) (fun soFar r _ => simulates_check _) soFar
    exact .foldlM_same (g := id) (fun soFar row _ => hrow soFar row) []

/-! ## Horizons -/

/-- Members have positions in the stage, and a horizon with members has a first one. -/
theorem simulates_horizonOf {length : Nat} {members : List (Nat × Timepoint × HorizonName)}
    (hmembers : ∀ m ∈ members, m.1 < length) (row : HorizonRow) :
    Simulates ofCheck id (Temporal.horizonOf place members row)
      (horizonOf place length members row) := by
  have hown : ∀ m ∈ members.filter (·.2.2 == row.horizon), m.1 < length :=
    fun m hm => hmembers m (List.mem_of_mem_filter hm)
  unfold horizonOf Temporal.horizonOf
  dsimp only
  generalize members.filter (·.2.2 == row.horizon) = own at hown
  cases own with
  | nil => rfl
  | cons first rest =>
    have hnext : neighboursM (fun a b => return (← positionAfter length a.1) == b.1)
        (first :: rest) = .ok (neighbours (fun a b => a.1 + 1 == b.1) (first :: rest)) := by
      refine neighboursM_eq_ok (List.pairwise_of_forall_mem_list fun a ha b _ => ?_).isChain
      rw [positionAfter_eq_ok_iff.2 ⟨hown a ha, rfl⟩]
      rfl
    rw [hnext]
    exact (simulates_check _).bind fun _ => .pure rfl

/-- A horizon which is read off is not empty. -/
theorem ne_nil_of_orderedHorizons {timepoints : List Timepoint} {declared : List HorizonRow}
    {hs : List Horizon}
    (hok : Temporal.orderedHorizons place rows p s b timepoints declared = .ok hs) :
    ∀ hz ∈ hs, hz.timepoints ≠ [] := by
  obtain ⟨members, -, hok⟩ := bind_ok_iff.1 hok
  obtain ⟨qs, hqs, hok⟩ := bind_ok_iff.1 hok
  rw [pure_ok_iff] at hok
  subst hok
  rw [mapM_ok_iff] at hqs
  intro hz hhz
  obtain ⟨q, hq, rfl⟩ := List.mem_map.1 hhz
  obtain ⟨row, -, hrow⟩ := exists_of_mem_forall₂ hqs (mem_sortOn.1 hq)
  unfold Temporal.horizonOf at hrow
  split at hrow
  · cases hrow
  · rw [seq_ok_iff, pure_ok_iff] at hrow
    rw [← hrow.2]
    exact List.cons_ne_nil _ _

theorem simulates_orderedHorizons (timepoints : List Timepoint) (declared : List HorizonRow) :
    Simulates ofCheck id (Temporal.orderedHorizons place rows p s b timepoints declared)
      (orderedHorizons place rows p s b timepoints declared) := by
  refine (simulates_check _).bind_ok fun members hmembers => ?_
  have hlt : ∀ m ∈ members, m.1 < timepoints.length := by
    intro m hm
    have hpos := List.mem_map_of_mem (f := Prod.fst) hm
    rwa [(placed_ok hmembers).positions, List.mem_range] at hpos
  exact (Simulates.mapM_same fun row _ => simulates_horizonOf hlt row).map fun horizons => by
    rw [List.map_id]
    rfl

/-! ## Links -/

theorem element_of_lt {α : Type} {l : List α} {i : Nat} (h : i < l.length) :
    element l i = .ok l[i] :=
  element_eq_ok_iff.2 (List.getElem?_eq_getElem h)

variable {hz : Horizon} {i : Nat}

theorem previousOf_eq (hi : i < hz.timepoints.length) (τ : Nat) :
    previousOf hz (hz.timepoints.length - 1) i = .ok (hz.linkAt i τ).previous := by
  have hlast : hz.timepoints.length - 1 < hz.timepoints.length := by omega
  have hbefore : i - 1 < hz.timepoints.length := by omega
  rw [previousOf, Horizon.linkAt]
  dsimp only
  by_cases hpos : 0 < i
  · rw [if_pos hpos, if_neg (Nat.ne_of_gt hpos), minus_eq_ok_iff.2 ⟨hpos, rfl⟩, List.getElem?_eq_getElem hbefore]
    simp only [bind, Except.bind, element_of_lt hbefore]
    rfl
  · rw [if_neg hpos, if_pos (Nat.eq_zero_of_not_pos hpos), Horizon.entry]
    cases hz.boundary with
    | circular =>
      rw [List.getLast?_eq_getElem?, List.getElem?_eq_getElem hlast, element_of_lt hlast]
      rfl
    | linear => rfl
    | linked => rfl

theorem nextOf_eq (hi : i < hz.timepoints.length) (τ : Nat) :
    nextOf hz (hz.timepoints.length - 1) i = .ok (hz.linkAt i τ).next := by
  have hfirst : 0 < hz.timepoints.length := Nat.zero_lt_of_lt hi
  rw [nextOf, Horizon.linkAt]
  dsimp only
  by_cases hlt : i < hz.timepoints.length - 1
  · have hafter : i + 1 < hz.timepoints.length := by omega
    rw [if_pos hlt, positionAfter_eq_ok_iff.2 ⟨hi, rfl⟩, List.getElem?_eq_getElem hafter]
    simp only [bind, Except.bind, element_of_lt hafter]
    rfl
  · rw [if_neg hlt, List.getElem?_eq_none (by omega), Option.map_none, Option.none_or, Horizon.exit]
    cases hz.boundary with
    | circular =>
      rw [if_pos rfl, List.head?_eq_getElem?, List.getElem?_eq_getElem hfirst, element_of_lt hfirst]
      rfl
    | linear => rfl
    | linked => rfl

/-- A horizon with a timepoint has links. -/
theorem links_eq (hne : hz.timepoints ≠ []) : links hz = .ok hz.links := by
  have hlinks : hz.links = hz.timepoints.zipIdx.map fun q => hz.linkAt q.2 q.1 := by
    refine List.ext_getElem? fun i => ?_
    rw [hz.getElem?_links, List.getElem?_map, List.getElem?_zipIdx, Option.map_map, Nat.zero_add]
    rfl
  rw [links, minus_eq_ok_iff.2 ⟨List.length_pos_iff.2 hne, rfl⟩, hlinks]
  refine mapM_ok_iff.2 (List.forall₂_map_right_iff.2 (List.forall₂_same.2 fun q hq => ?_))
  obtain ⟨τ, i⟩ := q
  obtain ⟨hi, -⟩ := List.getElem?_eq_some_iff.1 (List.mk_mem_zipIdx_iff_getElem?.1 hq)
  dsimp only
  rw [previousOf_eq hi τ, nextOf_eq hi τ]
  rfl

/-- Only an empty horizon stops the forming of links. -/
theorem links_eq_ok_iff {ls : List Link} : links hz = .ok ls ↔ hz.timepoints ≠ [] ∧ ls = hz.links := by
  constructor
  · intro hok
    have hne : hz.timepoints ≠ [] := by
      intro hnil
      rw [links, hnil] at hok
      cases hok
    exact ⟨hne, Except.ok.inj (hok.symm.trans (links_eq hne))⟩
  · rintro ⟨hne, rfl⟩
    exact links_eq hne

/-- The links of each horizon are formed once its boundary is settled. -/
theorem simulates_linkedHorizons {source : Option Source} {horizons : List Horizon}
    (hne : ∀ hz ∈ horizons, hz.timepoints ≠ []) (isFirst : Bool) :
    Simulates ofResolving (List.map fun hz => (hz, hz.links))
      (settleBoundaries place b source isFirst horizons)
      (linkedHorizons place b source isFirst horizons) := by
  induction horizons generalizing isFirst with
  | nil => exact .pure rfl
  | cons hz rest ih =>
    rw [List.forall_mem_cons] at hne
    have heffective : Simulates ofResolving id
        (effectiveBoundary (place.inHorizon b hz.name) source isFirst hz.declared)
        (ofResolving.apply
          (effectiveBoundary (place.inHorizon b hz.name) source isFirst hz.declared)) :=
      (id_map _).symm
    refine heffective.bind fun boundary => ?_
    have hlinks : links { hz with boundary } = .ok (Horizon.links { hz with boundary }) :=
      links_eq_ok_iff.2 ⟨hne.1, rfl⟩
    dsimp only [id]
    rw [hlinks]
    exact (ih hne.2 false).map fun rest => rfl

theorem simulates_resolveTimeline (source : Option Source) (timepoints : List Timepoint) :
    Simulates ofResolving id (Temporal.resolveTimeline place t rows source p s timepoints b)
      (resolveTimeline place t rows source p s timepoints b) := by
  refine simulates_lift_bind (simulates_orderedHorizons _ _) fun ordered hordered => ?_
  refine (simulates_linkedHorizons (ne_nil_of_orderedHorizons hordered) true).map fun horizons => ?_
  rw [List.map_map, List.flatMap_map]
  have hid : Prod.fst ∘ (fun hz : Horizon => (hz, hz.links)) = id := rfl
  rw [hid, List.map_id]
  rfl

/-! ## The hierarchy -/

theorem simulates_resolveStage (previous : Option Nat) (stage : Nat × String) :
    Simulates ofResolving id (Temporal.resolveStage place t rows previous p stage)
      (resolveStage place t rows previous p stage) := by
  refine simulates_lift_bind (simulates_check _) fun _ _ =>
    simulates_lift_bind (simulates_checkedCarriedOver _) fun linkedTimepoints _ => ?_
  exact (Simulates.mapM_same fun b _ => simulates_resolveTimeline _ _).map fun timelines => by
    rw [List.map_id]
    rfl

theorem simulates_resolveSubproblem (previous : Option Nat) (p : Nat) :
    Simulates ofResolving id (Temporal.resolveSubproblem place t rows previous p)
      (resolveSubproblem place t rows previous p) := by
  refine (Simulates.mapM_same fun stage _ => simulates_resolveStage previous stage).bind
    fun stages => ?_
  rw [List.map_id]
  cases stages with
  | nil => exact .pure rfl
  | cons first rest =>
    exact Simulates.bind (g := id) (.forM_same fun _ _ => simulates_lift _) fun _ => .pure rfl

theorem simulates_resolveSubproblems (previous : Option Nat) (ps : List Nat) :
    Simulates ofResolving id (Temporal.resolveSubproblems place t rows previous ps)
      (resolveSubproblems place t rows previous ps) := by
  induction ps generalizing previous with
  | nil => exact .pure rfl
  | cons p ps ih =>
    exact (simulates_resolveSubproblem previous p).bind fun sub =>
      (ih (some p)).map fun subs => rfl

theorem simulates_resolving (fragment : Nat) :
    Simulates ofResolving id (Temporal.resolving fragment t) (resolving fragment t) :=
  simulates_lift_bind (simulates_check _) fun _ _ =>
    simulates_lift_bind simulates_membership fun _ _ =>
    (simulates_resolveSubproblems none _).map fun _ => rfl

end Guarded

/-- Guarded resolving is never stopped, and gives what resolving gives. -/
theorem resolveGuarded_eq_ok (fragment : Nat) (t : Tables) :
    resolveGuarded fragment t = .ok (resolve fragment t) := by
  have hsim := Guarded.simulates_resolving (t := t) fragment
  rw [Simulates, id_map] at hsim
  rw [resolveGuarded, hsim]
  rfl

end CapacityExpansion.Temporal
