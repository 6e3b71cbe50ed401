import CapacityExpansion.Proofs.Temporal.Linkage

/-!
# Demotions of a hierarchy

A linked boundary which does not apply is treated as a linear one, and this is
reported along the way. Once a hierarchy is resolved, what has been reported can
be read off it: each horizon which is declared to be linked but is linear has
been reported once, in the order of the hierarchy, and nothing else has.

* `Resolving.Tells`: what a computation reports can be read off its result;
  `Tells.bind` and `Tells.mapM` say that this goes through composed ones;
* `Hierarchy.demoted`: the horizons of a hierarchy which are demoted;
* `resolve_demotions`: they are what resolving reports.
-/

namespace CapacityExpansion.Temporal

open Tables

/-! ## Reports read off results -/

namespace Resolving

variable {α β : Type} {x : Resolving α} {f : α → Resolving β} {first : α → List Demotion}
  {told : β → List Demotion} {l : List α}

/-- If a computation succeeds, its reports can be read off its result. -/
def Tells (x : Resolving α) (told : α → List Demotion) : Prop :=
  ∀ a, x.outcome = .ok a → x.reports = told a

theorem tells_pure (a : α) : (pure a : Resolving α).Tells fun _ => [] := fun _ _ => rfl

theorem tells_lift (x : Except Fault α) : (liftM x : Resolving α).Tells fun _ => [] :=
  fun _ _ => rfl

/-- A computation followed by another one tells what the two tell one after the other. -/
theorem Tells.bind (hf : ∀ a, (f a).Appends) (hx : x.Tells first)
    (h : ∀ a, x.outcome = .ok a → ∀ b, (f a).outcome = .ok b → first a ++ (f a).reports = told b) :
    (x >>= f).Tells told := by
  intro b hok
  rw [outcome_bind hf, bind_ok_iff] at hok
  obtain ⟨a, ha, hb⟩ := hok
  rw [reports_bind hf, ha, hx a ha]
  exact h a ha b hb

/-- A check tells nothing. -/
theorem Tells.lift_bind {x : Except Fault α} (hf : ∀ a, (f a).Appends)
    (h : ∀ a, x = .ok a → (f a).Tells told) : (liftM x >>= f).Tells told :=
  (tells_lift x).bind hf fun a ha b hb => h a ha b hb

/-- Putting a result together tells nothing. -/
theorem Tells.map {g : α → β} (hx : x.Tells fun a => told (g a)) :
    (do let a ← x; return g a : Resolving β).Tells told :=
  hx.bind (fun _ => appends_pure _) fun a _ b hb => by
    cases hb
    exact List.append_nil _

/-- Two computations whose results are put together tell what they tell one after the other. -/
theorem Tells.bind_map {γ : Type} {y : α → Resolving γ} {g : α → γ → β}
    {later : γ → List Demotion} (hx : x.Tells first) (hy : ∀ a, (y a).Appends)
    (h : ∀ a, (y a).Tells later) (htold : ∀ a c, told (g a c) = first a ++ later c) :
    (do let a ← x; let c ← y a; return g a c : Resolving β).Tells told := by
  refine hx.bind (fun a => (hy a).bind fun _ => appends_pure _) fun a _ b hb => ?_
  rw [outcome_bind fun _ => appends_pure _, bind_ok_iff] at hb
  obtain ⟨c, hc, hb⟩ := hb
  cases hb
  rw [reports_bind fun _ => appends_pure _, hc, h a c hc, htold]
  exact congrArg (first a ++ ·) (List.append_nil _)

theorem Tells.mapM (hf : ∀ a, (f a).Appends) (h : ∀ a, (f a).Tells told) :
    (l.mapM f).Tells (List.flatMap told) := by
  induction l with
  | nil => exact fun _ hok => by cases hok; rfl
  | cons a l ih =>
    rw [List.mapM_cons]
    exact (h a).bind_map (fun _ => .mapM hf) (fun _ => ih) fun _ _ => List.flatMap_cons

theorem tells_forM_lift {f : α → Except Fault Unit} :
    (l.forM fun a => liftM (f a) : Resolving Unit).Tells fun _ => [] := by
  induction l with
  | nil => exact tells_pure ()
  | cons a l ih => exact .lift_bind (fun _ => .forM fun _ => appends_lift _) fun _ _ => ih

end Resolving

/-! ## What is demoted -/

/-- A horizon which is declared to be linked, but is linear. -/
structure Demoted where
  /-- The subproblem. -/
  subproblem : Nat
  /-- The stage. -/
  stage : Nat
  /-- The balancing type. -/
  balancingType : BalancingType
  /-- The name of the horizon. -/
  horizon : HorizonName
  /-- It is the first horizon of its balancing type. -/
  isFirst : Bool

namespace Demoted

variable (fragment : Nat) (d : Demoted)

/-- The horizon, without its position. -/
def key : Nat × Nat × BalancingType × HorizonName :=
  (d.subproblem, d.stage, d.balancingType, d.horizon)

/-- What is reported. -/
def demotion : Demotion where
  location :=
    { fragment
      subproblem := some d.subproblem
      stage := some d.stage
      horizon := some (d.balancingType, d.horizon) }
  reason := if d.isFirst then .noPrevious else .notFirst

/-- The warning which is logged. -/
def warning : String :=
  s!"temporal fragment {fragment}" ++ s!", subproblem {d.subproblem}" ++ s!", stage {d.stage}" ++
    (", horizon " ++ d.horizon ++ " (balancing type " ++ d.balancingType ++ ")") ++ ": " ++
    if d.isFirst then "there is no previous subproblem to link to; treating boundary as linear"
    else "only the first horizon of a subproblem can be linked; treating boundary as linear"

theorem message_demotion : (d.demotion fragment).message = d.warning fragment := by
  obtain ⟨p, s, b, name, isFirst⟩ := d
  cases isFirst <;> rfl

end Demoted

/-- The horizons of a timeline which are demoted. -/
def Timeline.demoted (p s : Nat) (tl : Timeline) : List Demoted :=
  tl.horizons.zipIdx.filterMap fun (hz, i) =>
    if hz.declared = .linked ∧ hz.boundary = .linear then
      some ⟨p, s, tl.balancingType, hz.name, i == 0⟩
    else none

/-- The horizons of a stage which are demoted. -/
def Stage.demoted (p : Nat) (stage : Stage) : List Demoted :=
  stage.timelines.flatMap (Timeline.demoted p stage.id)

/-- The horizons of a hierarchy which are demoted. -/
def Hierarchy.demoted (H : Hierarchy) : List Demoted :=
  H.stages.flatMap fun (p, stage) => stage.demoted p

/-- What is demoted in a hierarchy resolved from tables is what has been reported. -/
structure Tables.Reports (t : Tables) (H : Hierarchy) (reported : List Demotion) : Prop where
  /-- Every demoted horizon has been reported, and nothing else, in the order of the hierarchy. -/
  reported_eq : reported = H.demoted.map (Demoted.demotion H.fragment)
  messages_eq : reported.map Demotion.message = H.demoted.map (Demoted.warning H.fragment)
  /-- No horizon is reported twice. -/
  nodup : (H.demoted.map Demoted.key).Nodup
  /-- A boundary which is not the declared one has been reported. -/
  mem_of_ne : ∀ p stage, (p, stage) ∈ H.stages → ∀ tl ∈ stage.timelines, ∀ hz ∈ tl.horizons,
    hz.boundary ≠ hz.declared → (p, stage.id, tl.balancingType, hz.name) ∈ H.demoted.map Demoted.key
  /-- If the first horizon is demoted, there is no previous subproblem. -/
  least_of_isFirst : ∀ d ∈ H.demoted, d.isFirst → ∀ q ∈ t.subproblems, d.subproblem ≤ q

variable {fragment p s : Nat} {t : Tables} {H : Hierarchy} {stage : Stage} {place : Location}
  {source : Option Source} {isFirst : Bool} {declared : Boundary} {b : BalancingType}
  {hs : List Horizon} {rows : List MemberRow} {previous : Option Nat} {tps : List Timepoint}

open Resolving (Tells appends_lift appends_pure)

/-! ## Reports of a timeline -/

/-- The report on a linked boundary which is linear. -/
def demotionAt? (place : Location) (b : BalancingType) : Horizon × Nat → Option Demotion
  | (hz, i) =>
    if hz.declared = .linked ∧ hz.boundary = .linear then
      some ⟨place.inHorizon b hz.name, if i = 0 then .noPrevious else .notFirst⟩
    else none

theorem tells_effectiveBoundary :
    (effectiveBoundary place source isFirst declared).Tells fun boundary =>
      if declared = .linked ∧ boundary = .linear then
        [⟨place, if isFirst then .noPrevious else .notFirst⟩]
      else [] := by
  intro boundary hok
  have happlied := (effectiveBoundary_ok_iff.1 hok).2
  unfold effectiveBoundary at hok ⊢
  by_cases hd : declared = .linked
  · subst hd happlied
    cases isFirst with
    | false => rfl
    | true =>
      cases source with
      | none => rfl
      | some src =>
        obtain ⟨q, _ | ⟨l, linked⟩⟩ := src
        · cases hok
        · rfl
  · rw [if_pos hd]
    exact (if_neg fun h => hd h.1).symm

theorem tells_settleBoundaries {k : Nat} (hk : isFirst ↔ k = 0) :
    (settleBoundaries place b source isFirst hs).Tells fun hs' =>
      (hs'.zipIdx k).filterMap (demotionAt? place b) := by
  induction hs generalizing isFirst k with
  | nil => exact fun _ hok => by cases hok; rfl
  | cons hz rest ih =>
    rw [settleBoundaries]
    refine tells_effectiveBoundary.bind_map (fun _ => appends_settleBoundaries)
      (fun _ => ih (k := k + 1) (by simp)) fun boundary hs' => ?_
    rw [List.zipIdx_cons, List.filterMap_cons, demotionAt?]
    simp only [hk]
    split_ifs <;> rfl

/-- The reports on the horizons of a timeline are those on the ones which are demoted. -/
theorem filterMap_demotionAt? (tl : Timeline) :
    tl.horizons.zipIdx.filterMap
        (demotionAt? (((Location.ofFragment fragment).inSubproblem p).inStage s) tl.balancingType) =
      (tl.demoted p s).map (Demoted.demotion fragment) := by
  rw [Timeline.demoted, List.map_filterMap]
  refine List.filterMap_congr fun (hz, i) _ => ?_
  simp only [demotionAt?, apply_ite (Option.map _), Option.map_some, Option.map_none,
    Demoted.demotion, beq_iff_eq]
  rfl

theorem tells_resolveTimeline :
    (resolveTimeline (((Location.ofFragment fragment).inSubproblem p).inStage s) t rows source p s
      tps b).Tells fun tl => (tl.demoted p s).map (Demoted.demotion fragment) := by
  simp only [← filterMap_demotionAt?]
  exact .lift_bind (fun _ => appends_settleBoundaries.bind fun _ => appends_pure _) fun _ _ =>
    .map (tells_settleBoundaries (by simp))

/-! ## Reports of stages and subproblems -/

/-- What is reported of a stage. -/
def Stage.reports (fragment p : Nat) (stage : Stage) : List Demotion :=
  (stage.demoted p).map (Demoted.demotion fragment)

theorem tells_resolveStage {s : Nat × String} :
    (resolveStage (.ofFragment fragment) t rows previous p s).Tells
      (Stage.reports fragment p) := by
  refine .lift_bind (fun _ => ?_) fun _ _ => .lift_bind (fun _ => ?_) fun _ _ => .map ?_
  · exact (appends_lift _).bind fun _ => (Resolving.Appends.mapM fun _ =>
      appends_resolveTimeline).bind fun _ => appends_pure _
  · exact (Resolving.Appends.mapM fun _ => appends_resolveTimeline).bind fun _ => appends_pure _
  · simp only [Stage.reports, Stage.demoted, List.map_flatMap]
    exact .mapM (fun _ => appends_resolveTimeline) fun _ => tells_resolveTimeline

/-- Comparing the stages of a subproblem reports nothing. -/
theorem tells_resolveSubproblem :
    (resolveSubproblem (.ofFragment fragment) t rows previous p).Tells fun sub =>
      sub.stages.flatMap (Stage.reports fragment sub.id) := by
  refine (Tells.mapM (fun _ => appends_resolveStage) fun _ => tells_resolveStage).bind
    appends_compareStages fun stages _ sub hsub => ?_
  cases stages with
  | nil =>
    cases hsub
    rfl
  | cons first rest =>
    have hcompare : (do
        rest.forM fun stage => liftM (checkSameHorizons
          (((Location.ofFragment fragment).inSubproblem p).inStage stage.id) first stage)
        return { id := p, stages := first :: rest } : Resolving Subproblem).Tells fun _ => [] :=
      .map Resolving.tells_forM_lift
    rw [hcompare sub hsub, List.append_nil]
    rw [Resolving.outcome_bind fun _ => appends_pure _, bind_ok_iff] at hsub
    obtain ⟨_, -, e⟩ := hsub
    cases e
    rfl

theorem tells_resolveSubproblems {l : List Nat} :
    (resolveSubproblems (.ofFragment fragment) t rows previous l).Tells
      (List.flatMap fun sub => sub.stages.flatMap (Stage.reports fragment sub.id)) := by
  induction l generalizing previous with
  | nil => exact fun _ hok => by cases hok; rfl
  | cons p rest ih =>
    exact tells_resolveSubproblem.bind_map (fun _ => appends_resolveSubproblems) (fun _ => ih)
      fun _ _ => List.flatMap_cons

theorem map_demotion_demoted (H : Hierarchy) : H.demoted.map (Demoted.demotion H.fragment) =
    H.subproblems.flatMap fun sub => sub.stages.flatMap (Stage.reports H.fragment sub.id) := by
  simp only [Hierarchy.demoted, Hierarchy.stages, List.map_flatMap, List.flatMap_assoc,
    List.flatMap_map]
  rfl

theorem tells_resolving : (resolving fragment t).Tells fun H =>
    H.demoted.map (Demoted.demotion H.fragment) := by
  simp only [map_demotion_demoted]
  exact .lift_bind (fun _ => (appends_lift _).bind fun _ => appends_resolveSubproblems.bind
    fun _ => appends_pure _) fun _ _ => .lift_bind (fun _ => appends_resolveSubproblems.bind
      fun _ => appends_pure _) fun _ _ => .map tells_resolveSubproblems

/-! ## Demoted horizons of a resolved hierarchy -/

theorem mem_demoted_iff {tl : Timeline} {d : Demoted} : d ∈ tl.demoted p s ↔
    ∃ i hz, tl.horizons[i]? = some hz ∧ hz.declared = .linked ∧ hz.boundary = .linear ∧
      d = ⟨p, s, tl.balancingType, hz.name, i == 0⟩ := by
  simp only [Timeline.demoted, List.mem_filterMap, Prod.exists, List.mk_mem_zipIdx_iff_getElem?]
  constructor
  · rintro ⟨hz, i, hget, hd⟩
    split_ifs at hd with hdemoted
    cases hd
    exact ⟨i, hz, hget, hdemoted.1, hdemoted.2, rfl⟩
  · rintro ⟨i, hz, hget, hdeclared, hboundary, rfl⟩
    exact ⟨hz, i, hget, if_pos ⟨hdeclared, hboundary⟩⟩

theorem Hierarchy.mem_demoted_iff {d : Demoted} : d ∈ H.demoted ↔
    ∃ p stage, (p, stage) ∈ H.stages ∧ ∃ tl ∈ stage.timelines, d ∈ tl.demoted p stage.id := by
  simp only [demoted, Stage.demoted, List.mem_flatMap, Prod.exists]

/-- Horizons with different names are at different positions. -/
theorem mem_head?_iff_eq_zero {tl : Timeline} (hnames : (tl.horizons.map Horizon.name).Nodup)
    {i : Nat} {hz : Horizon} (hget : tl.horizons[i]? = some hz) :
    hz ∈ tl.horizons.head? ↔ i = 0 := by
  obtain ⟨hlt, -⟩ := List.getElem?_eq_some_iff.1 hget
  rw [List.head?_eq_getElem?, Option.mem_def, ← hget]
  exact ⟨fun e => (List.getElem?_inj hlt hnames.of_map).1 e.symm, fun e => by rw [e]⟩

theorem nodup_key_timeline_demoted {tl : Timeline} (hnames : (tl.horizons.map Horizon.name).Nodup) :
    (tl.demoted p s).Pairwise fun d e => d.horizon ≠ e.horizon := by
  have hzip : tl.horizons.zipIdx.Pairwise fun a b => a.1.name ≠ b.1.name := by
    rw [← List.zipIdx_map_fst 0 tl.horizons, List.map_map] at hnames
    exact List.pairwise_map.1 hnames
  refine List.Pairwise.filterMap _ (fun (a, i) (b, j) hne d hd e he => ?_) hzip
  dsimp only at hd he
  split_ifs at hd he
  cases hd
  cases he
  exact hne

namespace Tables.Resolves

variable (h : t.Resolves H)
include h

/-- A demoted horizon is one of the hierarchy, and no other one is demoted in its place. -/
theorem nodup_key_demoted : (H.demoted.map Demoted.key).Nodup := by
  rw [List.Nodup, List.pairwise_map, Hierarchy.demoted, List.pairwise_flatMap]
  constructor
  · rintro ⟨p, stage⟩ hmem
    have hres := (h.of_mem_stages hmem).2
    have htypes : stage.timelines.Pairwise fun a b => a.balancingType ≠ b.balancingType := by
      have hnodup := nodup_balancingTypes (t := t)
      rw [← hres.balancingTypes_eq] at hnodup
      exact List.pairwise_map.1 hnodup
    dsimp only [Stage.demoted]
    rw [List.pairwise_flatMap]
    constructor
    · intro tl htl
      have hnames := (hres.resolvesTimeline_of_mem htl).nodup_names h.declared
      exact (nodup_key_timeline_demoted hnames).imp fun hne e => hne (congrArg (·.2.2.2) e)
    · refine htypes.imp fun hne d hd e he hkey => hne ?_
      obtain ⟨_, _, -, -, -, rfl⟩ := mem_demoted_iff.1 hd
      obtain ⟨_, _, -, -, -, rfl⟩ := mem_demoted_iff.1 he
      exact congrArg (·.2.2.1) hkey
  · refine h.pairwise_stages.imp fun hlt d hd e he hkey => ?_
    obtain ⟨_, -, hd⟩ := List.mem_flatMap.1 hd
    obtain ⟨_, -, he⟩ := List.mem_flatMap.1 he
    obtain ⟨_, _, -, -, -, rfl⟩ := mem_demoted_iff.1 hd
    obtain ⟨_, _, -, -, -, rfl⟩ := mem_demoted_iff.1 he
    -- Stages in order differ in the subproblem or in the stage.
    have hp := congrArg (·.1) hkey
    have hs := congrArg (·.2.1) hkey
    dsimp only [Demoted.key] at hp hs
    omega

/-- A boundary which is not the declared one is that of a demoted horizon. -/
theorem mem_key_demoted (hmem : (p, stage) ∈ H.stages) {tl : Timeline}
    (htl : tl ∈ stage.timelines) {hz : Horizon} (hhz : hz ∈ tl.horizons)
    (hne : hz.boundary ≠ hz.declared) :
    (p, stage.id, tl.balancingType, hz.name) ∈ H.demoted.map Demoted.key := by
  have hres := (h.of_mem_stages hmem).2
  have hsettles := (hres.resolvesTimeline_of_mem htl).settles h.declared hres hhz
  have hdeclared : hz.declared = .linked := by
    by_contra hd
    exact hne (hsettles.of_ne_linked hd)
  have hboundary : hz.boundary = .linear :=
    (hsettles.linked_or_linear hdeclared).resolve_left fun hb => hne (hb.trans hdeclared.symm)
  obtain ⟨i, hget⟩ := List.mem_iff_getElem?.1 hhz
  refine List.mem_map.2 ⟨⟨p, stage.id, tl.balancingType, hz.name, i == 0⟩, ?_, rfl⟩
  exact Hierarchy.mem_demoted_iff.2 ⟨p, stage, hmem, tl, htl,
    mem_demoted_iff.2 ⟨i, hz, hget, hdeclared, hboundary, rfl⟩⟩

/-- The first horizon of a timeline is demoted only if there is no previous subproblem. -/
theorem le_of_isFirst {d : Demoted} (hd : d ∈ H.demoted) (hfirst : d.isFirst) :
    ∀ q ∈ t.subproblems, d.subproblem ≤ q := by
  obtain ⟨p, stage, hmem, tl, htl, hd⟩ := Hierarchy.mem_demoted_iff.1 hd
  obtain ⟨i, hz, hget, hdeclared, hboundary, rfl⟩ := mem_demoted_iff.1 hd
  have hres := (h.of_mem_stages hmem).2
  have htimeline := hres.resolvesTimeline_of_mem htl
  have hsettles := htimeline.settles h.declared hres (List.mem_of_getElem? hget)
  have hhead := (mem_head?_iff_eq_zero (htimeline.nodup_names h.declared) hget).2
    (beq_iff_eq.1 hfirst)
  intro q hq
  by_contra hlt
  -- The first horizon would be linked to the subproblem before.
  have hlinked := hsettles.linked_iff.2 ⟨hdeclared, hhead, q, hq, Nat.lt_of_not_le hlt⟩
  rw [hboundary] at hlinked
  cases hlinked

end Tables.Resolves

/-! ## Hierarchies -/

/-- Resolving reports the demoted horizons of the hierarchy, and nothing else. -/
theorem resolve_demotions (hok : (resolve fragment t).outcome = .ok H) :
    t.Reports H (resolve fragment t).demotions := by
  have h := resolves_of_ok hok
  have hreported : (resolve fragment t).demotions = H.demoted.map (Demoted.demotion H.fragment) :=
    tells_resolving H hok
  refine ⟨hreported, ?_, h.nodup_key_demoted, fun p stage hmem tl htl hz hhz hne =>
    h.mem_key_demoted hmem htl hhz hne, fun d hd hfirst => h.le_of_isFirst hd hfirst⟩
  rw [hreported, List.map_map]
  exact List.map_congr_left fun d _ => d.message_demotion H.fragment

/-- The two days, with all boundaries linked. -/
def allLinked : Tables :=
  { twoDays with horizons := twoDays.horizons.map fun row => { row with boundary := .linked } }

/-- The first day has nothing to link to, and the second one links its first horizons only. -/
theorem resolve_demotions_allLinked : ∃ H, (resolve 1 allLinked).outcome = .ok H ∧
    H.demoted.map (Demoted.warning 1) =
      ["temporal fragment 1, subproblem 1, stage 1, horizon monday (balancing type day): " ++
        "there is no previous subproblem to link to; treating boundary as linear",
      "temporal fragment 1, subproblem 1, stage 1, horizon all (balancing type hour): " ++
        "there is no previous subproblem to link to; treating boundary as linear",
      "temporal fragment 1, subproblem 2, stage 1, horizon late (balancing type hour): " ++
        "only the first horizon of a subproblem can be linked; treating boundary as linear"] ∧
    allLinked.Reports H (resolve 1 allLinked).demotions := by
  have hisOk : (resolve 1 allLinked).outcome.isOk := by decide
  obtain ⟨H, hok⟩ := exists_of_isOk hisOk
  have hreports := resolve_demotions hok
  have hfragment : H.fragment = 1 := by
    obtain ⟨-, rows, subs, -, -, rfl⟩ := resolve_ok_iff.1 hok
    rfl
  have hmessages := hreports.messages_eq
  rw [hfragment] at hmessages
  exact ⟨H, hok, hmessages ▸ by decide +kernel, hreports⟩

end CapacityExpansion.Temporal
