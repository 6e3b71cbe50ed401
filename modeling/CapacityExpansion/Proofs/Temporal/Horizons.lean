import CapacityExpansion.Proofs.Data.Increasing
import CapacityExpansion.Proofs.Data.Success
import CapacityExpansion.Proofs.Temporal.Carryover
import CapacityExpansion.Temporal.Timeline

/-!
# Splitting timepoints into horizons

Given the horizon into which each timepoint of a stage is put, the horizons of a
balancing type are blocks of the stage's timepoints. They can be put in order if
and only if every timepoint is in one, and none of them is empty or interrupted
by timepoints of another. In order, they make up the stage.

* `exists_orderedHorizons_iff`: when there are horizons in order;
* `Splits`, `orderedHorizons_splits`: what they are then.
-/

namespace CapacityExpansion.Temporal

/-- The timepoints put into a horizon. -/
def membersOf (assigned : Nat → Option HorizonName) (tps : List Timepoint) (h : HorizonName) :
    List Timepoint :=
  tps.filter fun tp => assigned tp.id == some h

/-- A declared horizon with the timepoints put into it. -/
def horizonFor (assigned : Nat → Option HorizonName) (tps : List Timepoint) (row : HorizonRow) :
    Horizon where
  name := row.horizon
  declared := row.boundary
  boundary := row.boundary
  timepoints := (membersOf assigned tps row.horizon).map Timepoint.id
  duration := totalHours (membersOf assigned tps row.horizon)

/-- `hs` are the declared horizons in order. None of them is empty, and they make up the
    timepoints. -/
structure Splits (assigned : Nat → Option HorizonName) (tps : List Timepoint)
    (declared : List HorizonRow) (hs : List Horizon) : Prop where
  perm : hs.Perm (declared.map (horizonFor assigned tps))
  ne_nil : ∀ hz ∈ hs, hz.timepoints ≠ []
  flatMap_timepoints : hs.flatMap Horizon.timepoints = tps.map Timepoint.id

/-- `ms` are the timepoints, numbered and each with its horizon. -/
structure Placed (assigned : Nat → Option HorizonName) (tps : List Timepoint)
    (ms : List (Nat × Timepoint × HorizonName)) : Prop where
  positions : ms.map Prod.fst = List.range tps.length
  timepoints : ms.map (·.2.1) = tps
  horizons : ∀ m ∈ ms, assigned m.2.1.id = some m.2.2

variable {place : Location} {rows : List MemberRow} {p s : Nat} {b : BalancingType}
  {tps : List Timepoint} {assigned : Nat → Option HorizonName} {h : HorizonName}
  {ms : List (Nat × Timepoint × HorizonName)} {row : HorizonRow} {declared : List HorizonRow}
  {hs : List Horizon}

/-! ## Timepoints and their horizons -/

theorem mem_membersOf_iff {tp : Timepoint} :
    tp ∈ membersOf assigned tps h ↔ tp ∈ tps ∧ assigned tp.id = some h := by
  rw [membersOf, List.mem_filter, beq_iff_eq]

theorem exists_placed_ok_iff :
    (∃ ms, placed place rows p s b tps = .ok ms) ↔
      ∀ tp ∈ tps, ∃ h, horizonAmong rows p s b tp.id = some h := by
  rw [placed, exists_mapM_ok_iff]
  constructor
  · intro hall tp htp
    obtain ⟨i, hi, rfl⟩ := List.getElem_of_mem htp
    obtain ⟨m, hm⟩ := hall (tps[i], i)
      (List.mk_mem_zipIdx_iff_getElem?.2 (List.getElem?_eq_getElem hi))
    cases e : horizonAmong rows p s b tps[i].id with
    | none => simp [e] at hm
    | some h => exact ⟨h, rfl⟩
  · rintro hall ⟨tp, i⟩ hmem
    obtain ⟨h, e⟩ := hall tp (List.fst_mem_of_mem_zipIdx hmem)
    exact ⟨(i, tp, h), by simp [e]⟩

theorem placed_ok (hok : placed place rows p s b tps = .ok ms) :
    Placed (horizonAmong rows p s b) tps ms := by
  rw [placed, mapM_ok_iff] at hok
  have hstep : List.Forall₂ (fun q m => q.2 = m.1 ∧ q.1 = m.2.1 ∧
      horizonAmong rows p s b m.2.1.id = some m.2.2) tps.zipIdx ms := by
    refine hok.imp fun {q m} e => ?_
    obtain ⟨tp, i⟩ := q
    cases hh : horizonAmong rows p s b tp.id with
    | none => simp [hh] at e
    | some h =>
      simp only [hh, Except.ok.injEq] at e
      subst e
      exact ⟨rfl, rfl, hh⟩
  constructor
  · rw [← map_eq_map_of_forall₂ hstep fun _ _ e => e.1, List.zipIdx_map_snd, List.range_eq_range']
  · rw [← map_eq_map_of_forall₂ hstep fun _ _ e => e.2.1, List.zipIdx_map_fst]
  · intro m hm
    obtain ⟨_, -, e⟩ := exists_of_mem_forall₂ hstep hm
    exact e.2.2

namespace Placed

theorem increasing (hms : Placed assigned tps ms) (htps : Increasing Timepoint.id tps) :
    Increasing (·.2.1.id) ms := by
  rw [← hms.timepoints, Increasing, List.pairwise_map] at htps
  exact htps

theorem increasing_positions (hms : Placed assigned tps ms) : Increasing Prod.fst ms := by
  rw [increasing_iff_map, hms.positions]
  exact List.pairwise_lt_range

/-- The members of a horizon are those placed in it. -/
theorem membersOf_eq (hms : Placed assigned tps ms) (h : HorizonName) :
    membersOf assigned tps h = (ms.filter (·.2.2 == h)).map (·.2.1) := by
  rw [membersOf, ← hms.timepoints, List.filter_map]
  refine congrArg _ (List.filter_congr fun m hm => ?_)
  simp [hms.horizons m hm]

theorem contiguous_iff (hms : Placed assigned tps ms) (h : HorizonName) :
    Contiguous (·.2.1.id) ms (·.2.2 = h) ↔
      Contiguous Timepoint.id tps (fun tp => assigned tp.id = some h) := by
  have hname : ∀ m ∈ ms, m.2.2 = h ↔ assigned m.2.1.id = some h := fun m hm => by
    rw [hms.horizons m hm, Option.some.injEq]
  unfold Contiguous
  rw [← hms.timepoints]
  simp only [List.forall_mem_map]
  refine forall₂_congr fun a ha => forall₂_congr fun b hb => forall₂_congr fun c hc => ?_
  rw [hname a ha, hname b hb, hname c hc]

/-- The members of a horizon have positions which follow each other if and only if nothing else lies
    between them. -/
theorem neighbours_filter_iff (hms : Placed assigned tps ms) (htps : Increasing Timepoint.id tps)
    (h : HorizonName) :
    neighbours (fun a b => a.1 + 1 == b.1) (ms.filter (·.2.2 == h)) ↔
      Contiguous Timepoint.id tps (fun tp => assigned tp.id = some h) := by
  have hchain := isChain_filter_succ_iff (hms.increasing htps) hms.positions (·.2.2 == h)
  simp only [beq_iff_eq] at hchain
  rw [← hms.contiguous_iff, ← hchain, neighbours_iff]
  simp only [beq_iff_eq]

end Placed

/-! ## Horizons one by one -/

/-- A horizon is read off unless it is empty or interrupted. -/
theorem exists_horizonOf_iff (hms : Placed assigned tps ms) (htps : Increasing Timepoint.id tps) :
    (∃ q, horizonOf place ms row = .ok q) ↔ membersOf assigned tps row.horizon ≠ [] ∧
      Contiguous Timepoint.id tps (fun tp => assigned tp.id = some row.horizon) := by
  rw [← hms.neighbours_filter_iff htps, hms.membersOf_eq, Ne, List.map_eq_nil_iff, horizonOf]
  cases ms.filter (·.2.2 == row.horizon) with
  | nil => simp [throw, throwThe, MonadExceptOf.throw]
  | cons first rest =>
    simp only [seq_ok_iff, require_ok_iff, pure_ok_iff]
    simp

/-- A horizon read off has the timepoints put into it, and the position of the first of them. -/
theorem horizonOf_ok (hms : Placed assigned tps ms) {q : Nat × Horizon}
    (hok : horizonOf place ms row = .ok q) : q.2 = horizonFor assigned tps row ∧
      (∃ m ∈ ms, m.2.2 = row.horizon ∧ m.1 = q.1) ∧
      ∀ m ∈ ms, m.2.2 = row.horizon → q.1 ≤ m.1 := by
  have hinc := hms.increasing_positions.filter (·.2.2 == row.horizon)
  have hmem : ∀ m, m ∈ ms.filter (·.2.2 == row.horizon) ↔ m ∈ ms ∧ m.2.2 = row.horizon :=
    fun m => by rw [List.mem_filter, beq_iff_eq]
  rw [horizonFor, hms.membersOf_eq]
  unfold horizonOf at hok
  cases e : ms.filter (·.2.2 == row.horizon) with
  | nil => simp [e, throw, throwThe, MonadExceptOf.throw] at hok
  | cons first rest =>
    simp only [e, seq_ok_iff, pure_ok_iff] at hok
    obtain ⟨-, rfl⟩ := hok
    rw [e] at hinc
    refine ⟨by simp, ⟨first, ((hmem first).1 (e ▸ List.mem_cons_self)).1,
      ((hmem first).1 (e ▸ List.mem_cons_self)).2, rfl⟩, fun m hm hname => ?_⟩
    have hm' : m ∈ first :: rest := e ▸ (hmem m).2 ⟨hm, hname⟩
    rcases List.mem_cons.1 hm' with rfl | hm'
    · exact Nat.le_refl _
    · exact Nat.le_of_lt ((List.pairwise_cons.1 hinc).1 m hm')

/-! ## Horizons in order -/

/-- Horizons are put in order if and only if every timepoint is in one, and none of them is empty
    or interrupted. -/
theorem exists_orderedHorizons_iff (htps : Increasing Timepoint.id tps) :
    (∃ hs, orderedHorizons place rows p s b tps declared = .ok hs) ↔
      (∀ tp ∈ tps, ∃ h, horizonAmong rows p s b tp.id = some h) ∧
      ∀ row ∈ declared, membersOf (horizonAmong rows p s b) tps row.horizon ≠ [] ∧
        Contiguous Timepoint.id tps
          (fun tp => horizonAmong rows p s b tp.id = some row.horizon) := by
  simp only [orderedHorizons, bind_ok_iff, pure_ok_iff]
  rw [← @exists_placed_ok_iff place]
  constructor
  · rintro ⟨hs, ms, hms, qs, hqs, -⟩
    refine ⟨⟨ms, hms⟩, fun row hrow => ?_⟩
    rw [← exists_horizonOf_iff (placed_ok hms) htps]
    exact exists_mapM_ok_iff.1 ⟨qs, hqs⟩ row hrow
  · rintro ⟨⟨ms, hms⟩, hrows⟩
    obtain ⟨qs, hqs⟩ : ∃ qs, declared.mapM (horizonOf place ms) = .ok qs :=
      exists_mapM_ok_iff.2 fun row hrow =>
        (exists_horizonOf_iff (placed_ok hms) htps).2 (hrows row hrow)
    exact ⟨_, ms, hms, qs, hqs, rfl⟩

/-- Horizons read off and sorted by their first timepoints are blocks of the placed timepoints in
    order. -/
theorem flatMap_horizonOf (hms : Placed assigned tps ms) (htps : Increasing Timepoint.id tps)
    {qs : List (Nat × Horizon)} (hsorted : qs.Pairwise fun q r => q.1 ≤ r.1)
    (hread : ∀ q ∈ qs, ∃ row, horizonOf place ms row = .ok q)
    (hnodup : (qs.map (·.2.name)).Nodup) (hnames : ∀ m ∈ ms, m.2.2 ∈ qs.map (·.2.name)) :
    ((qs.map (·.2.name)).flatMap fun n => ms.filter (·.2.2 == n)) = ms := by
  refine flatMap_blocks (hms.increasing htps) (·.2.2) _ hnames hnodup (fun h hh => ?_) ?_
  · obtain ⟨q, hq, rfl⟩ := List.mem_map.1 hh
    obtain ⟨row, hok⟩ := hread q hq
    rw [(horizonOf_ok hms hok).1]
    exact (hms.contiguous_iff row.horizon).2 ((exists_horizonOf_iff hms htps).1 ⟨q, hok⟩).2
  · refine List.pairwise_map.2 (hsorted.imp_of_mem fun {q r} hq hr hle => ?_)
    obtain ⟨row, hok⟩ := hread q hq
    obtain ⟨row', hok'⟩ := hread r hr
    obtain ⟨e, ⟨m, hm, hname, hpos⟩, -⟩ := horizonOf_ok hms hok
    obtain ⟨e', -, hfirst⟩ := horizonOf_ok hms hok'
    refine ⟨m, hm, by rw [hname, e]; rfl, fun m' hm' hname' => ?_⟩
    rw [← (hms.increasing htps).le_iff_le hms.increasing_positions hm hm', hpos]
    exact Nat.le_trans hle (hfirst m' hm' (by rw [hname', e']; rfl))

/-- Horizons in order are those declared, and make up the timepoints. -/
theorem orderedHorizons_splits (htps : Increasing Timepoint.id tps)
    (hnodup : (declared.map HorizonRow.horizon).Nodup)
    (hdeclared : ∀ τ h, horizonAmong rows p s b τ = some h →
      h ∈ declared.map HorizonRow.horizon)
    (hok : orderedHorizons place rows p s b tps declared = .ok hs) :
    Splits (horizonAmong rows p s b) tps declared hs := by
  have hsome := (exists_orderedHorizons_iff htps).1 ⟨hs, hok⟩
  simp only [orderedHorizons, bind_ok_iff, pure_ok_iff] at hok
  obtain ⟨ms, hms, qs, hqs, rfl⟩ := hok
  replace hms := placed_ok hms
  rw [mapM_ok_iff] at hqs
  have hperm : ((sortOn Prod.fst qs).map Prod.snd).Perm
      (declared.map (horizonFor (horizonAmong rows p s b) tps)) := by
    rw [map_eq_map_of_forall₂ hqs fun _ _ hq => (horizonOf_ok hms hq).1.symm]
    exact (sortOn_perm _ qs).map _
  refine ⟨hperm, fun hz hmem => ?_, ?_⟩
  · obtain ⟨row, hrow, rfl⟩ := List.mem_map.1 (hperm.mem_iff.1 hmem)
    rw [horizonFor, Ne, List.map_eq_nil_iff]
    exact (hsome.2 row hrow).1
  -- The names of the horizons, in the order of their first timepoints.
  let names := (sortOn Prod.fst qs).map (·.2.name)
  have hnames : names.Perm (declared.map HorizonRow.horizon) := by
    have h := hperm.map Horizon.name
    rwa [List.map_map, List.map_map (l := declared)] at h
  have hread : ∀ q ∈ sortOn Prod.fst qs, ∃ row, horizonOf place ms row = .ok q := fun q hq =>
    let ⟨row, _, hok⟩ := exists_of_mem_forall₂ hqs (mem_sortOn.1 hq)
    ⟨row, hok⟩
  have hblocks : (names.flatMap fun n => ms.filter (·.2.2 == n)) = ms :=
    flatMap_horizonOf hms htps (pairwise_sortOn _ qs) hread (hnames.nodup_iff.2 hnodup)
      fun m hm => hnames.mem_iff.2 (hdeclared _ _ (hms.horizons m hm))
  calc ((sortOn Prod.fst qs).map Prod.snd).flatMap Horizon.timepoints
      = names.flatMap fun n => (ms.filter (·.2.2 == n)).map (·.2.1.id) := by
        rw [List.flatMap_map, List.flatMap_map]
        refine List.flatMap_congr fun q hq => ?_
        obtain ⟨row, hok⟩ := hread q hq
        rw [(horizonOf_ok hms hok).1, horizonFor, hms.membersOf_eq, List.map_map]
        rfl
    _ = (names.flatMap fun n => ms.filter (·.2.2 == n)).map (·.2.1.id) := List.map_flatMap.symm
    _ = tps.map Timepoint.id := by
        rw [hblocks, ← hms.timepoints, List.map_map]
        rfl

/-- The first of some horizons in order is the one with the first timepoint. -/
theorem mem_head?_iff {ns : List Nat} (hns : Increasing id ns)
    (hflat : hs.flatMap Horizon.timepoints = ns) (hne : ∀ hz ∈ hs, hz.timepoints ≠ [])
    {hz : Horizon} (hmem : hz ∈ hs) :
    hz ∈ hs.head? ↔ ∃ τ ∈ hz.timepoints, ∀ τ' ∈ ns, τ ≤ τ' := by
  subst hflat
  obtain ⟨first, rest, rfl⟩ := List.exists_cons_of_ne_nil (List.ne_nil_of_mem hmem)
  obtain ⟨τ₀, more, hfirst⟩ := List.exists_cons_of_ne_nil (hne first List.mem_cons_self)
  have hτ₀ : τ₀ ∈ first.timepoints := hfirst ▸ List.mem_cons_self
  rw [List.flatMap_cons] at hns ⊢
  have hleast := (hns.head?_eq_some_iff (a := τ₀)).1 (by rw [hfirst]; rfl)
  rw [List.head?_cons, Option.mem_some_iff]
  constructor
  · rintro rfl
    exact ⟨τ₀, hτ₀, hleast.2⟩
  · rintro ⟨τ, hτ, hle⟩
    rcases List.mem_cons.1 hmem with rfl | hrest
    · rfl
    · -- A timepoint of a further horizon comes after those of the first one.
      have hlt := (List.pairwise_append.1 hns).2.2 τ₀ hτ₀ τ (List.mem_flatMap.2 ⟨hz, hrest, hτ⟩)
      have hge := hle τ₀ hleast.1
      simp only [id] at hlt
      omega

/-- The first timepoints of horizons in order increase. -/
theorem increasing_first {ns : List Nat} (hns : Increasing id ns)
    (hflat : hs.flatMap Horizon.timepoints = ns) (hne : ∀ hz ∈ hs, hz.timepoints ≠ []) :
    Increasing (·.timepoints.headD 0) hs := by
  rw [← hflat, Increasing, List.pairwise_flatMap] at hns
  refine (List.Pairwise.and_mem.1 hns.2).imp ?_
  rintro hz hz' ⟨hmem, hmem', hlt⟩
  obtain ⟨τ, _, e⟩ := List.exists_cons_of_ne_nil (hne hz hmem)
  obtain ⟨τ', _, e'⟩ := List.exists_cons_of_ne_nil (hne hz' hmem')
  rw [e, e'] at hlt
  dsimp only
  rw [e, e']
  exact hlt τ List.mem_cons_self τ' List.mem_cons_self

namespace Splits

variable {hz : Horizon}

theorem increasing (hsp : Splits assigned tps declared hs) (htps : Increasing Timepoint.id tps) :
    Increasing (·.timepoints.headD 0) hs :=
  increasing_first (List.pairwise_map.2 htps) hsp.flatMap_timepoints hsp.ne_nil

/-- The horizons in order do not depend on the order in which they are declared. -/
theorem eq_of_perm {declared' : List HorizonRow} {hs' : List Horizon}
    (hsp : Splits assigned tps declared hs) (hsp' : Splits assigned tps declared' hs')
    (htps : Increasing Timepoint.id tps) (hperm : declared.Perm declared') : hs = hs' :=
  (hsp.increasing htps).ext (hsp'.increasing htps) fun _ =>
    (hsp.perm.trans ((hperm.map _).trans hsp'.perm.symm)).mem_iff

theorem exists_row (hsp : Splits assigned tps declared hs) (hmem : hz ∈ hs) :
    ∃ row ∈ declared, horizonFor assigned tps row = hz :=
  List.mem_map.1 (hsp.perm.mem_iff.1 hmem)

/-- The timepoints of a horizon are those put into it. -/
theorem mem_timepoints_iff (hsp : Splits assigned tps declared hs) (hmem : hz ∈ hs) {τ : Nat} :
    τ ∈ hz.timepoints ↔ τ ∈ tps.map Timepoint.id ∧ assigned τ = some hz.name := by
  obtain ⟨row, -, rfl⟩ := hsp.exists_row hmem
  simp only [horizonFor, List.mem_map, mem_membersOf_iff]
  constructor
  · rintro ⟨tp, ⟨htp, e⟩, rfl⟩
    exact ⟨⟨tp, htp, rfl⟩, e⟩
  · rintro ⟨⟨tp, htp, rfl⟩, e⟩
    exact ⟨tp, ⟨htp, e⟩, rfl⟩

end Splits

end CapacityExpansion.Temporal
