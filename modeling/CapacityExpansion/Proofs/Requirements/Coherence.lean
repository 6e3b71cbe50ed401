import CapacityExpansion.Proofs.Data.Lookup
import CapacityExpansion.Proofs.Data.Success
import CapacityExpansion.Requirements.Loading

/-!
# Coherent requirements

Requirements are only accepted if they are *coherent*: a category is exclusive to
one feature at most, its *owner*, and nothing but the owner may require it. The
checks made when requirements are read are exactly strong enough for that, so a
category whose owner is switched off is not required of a scenario.

Requirements come from a file, from a text, or are the bundled ones.

* `checkCoherent_ok_iff`: the checks accept coherent requirements and no others;
* `coherent_of_ofNames`, `Loaded.coherent`: requirements which are read are
  coherent;
* `Coherent.eq_of_exclusive`, `Coherent.not_mem_required`: what follows for the
  rules of the features.
-/

namespace CapacityExpansion.Requirements

variable {r : Requirements} {category : Category} {f g : Feature}

theorem mem_exclusives {p : Category × Feature} :
    p ∈ r.exclusives ↔ p.1 ∈ (r.rule p.2).exclusive := by
  simp [exclusives, Prod.ext_iff, Feature.mem_all]

theorem mem_requirements {p : Category × Feature} :
    p ∈ r.requirements ↔ p.1 ∈ (r.rule p.2).required := by
  simp [requirements, Prod.ext_iff, Feature.mem_all]

/-! ## The checks -/

/-- A category passes if it is exclusive to no feature before, and not listed before. -/
theorem checkExclusive_ok_iff {earlier : List (Category × Feature)} {p : Category × Feature} :
    checkExclusive earlier p = .ok () ↔ p.1 ∉ earlier.map Prod.fst := by
  rw [← find?_key_eq_none_iff, checkExclusive]
  split
  · next hfind => simp [hfind]
  · next hfind => simp [hfind]

theorem checkAlways_ok_iff : r.checkAlways category = .ok () ↔ r.owner? category = none := by
  rw [checkAlways]
  split
  · next howner => simp [howner]
  · next howner => simp [howner]

theorem checkRequired_ok_iff {p : Category × Feature} :
    r.checkRequired p = .ok () ↔ ∀ owner, r.owner? p.1 = some owner → owner = p.2 := by
  rw [checkRequired]
  split
  · next howner => simp [howner]
  · next howner => simp [howner]

/-- The checks accept coherent requirements and no others. -/
theorem checkCoherent_ok_iff : r.checkCoherent = .ok () ↔ r.Coherent := by
  have hexclusives : checkInOrder checkExclusive [] r.exclusives = .ok () ↔
      (r.exclusives.map Prod.fst).Nodup := by
    rw [checkInOrder_nodup_iff (fun _ => True) Prod.fst fun earlier p => by
      rw [checkExclusive_ok_iff, true_and]]
    simp
  simp only [checkCoherent, seq_ok_iff, hexclusives, forM_ok_iff, checkAlways_ok_iff,
    checkRequired_ok_iff]
  exact ⟨fun ⟨hnodup, halways, hrequired⟩ => ⟨hnodup, halways, hrequired⟩,
    fun h => ⟨h.nodup, h.always_free, h.required_own⟩⟩

/-- Requirements given by names are coherent if they are accepted. -/
theorem coherent_of_ofNames {named : Named} (hok : ofNames named = .ok r) : r.Coherent := by
  simp only [ofNames, bind_ok_iff, pure_ok_iff] at hok
  obtain ⟨_, -, _, -, _, -, _, hcoherent, rfl⟩ := hok
  exact checkCoherent_ok_iff.1 hcoherent

/-! ## Requirements which are loaded -/

/-- Requirements which come from where they can come from. -/
inductive Loaded : Requirements → Prop where
  /-- They are those of a file, or the bundled ones. -/
  | ofPath {files : Files} {path : Option String} {r : Requirements}
      (hok : load files path = .ok r) : Loaded r
  /-- They are those of a text. -/
  | ofText {text : String} {r : Requirements} (hok : Requirements.ofText text = .ok r) :
    Loaded r

theorem coherent_of_attemptNames {named : Named} (hok : attemptNames named = .ok r) :
    r.Coherent := by
  rw [attemptNames, mapError_ok_iff] at hok
  exact coherent_of_ofNames hok

/-- Requirements which are loaded are coherent. -/
theorem Loaded.coherent (hr : Loaded r) : r.Coherent := by
  rcases hr with @⟨files, path, _, hok⟩ | hok
  · rcases path with _ | path
    · rw [Requirements.load, pure_ok_iff] at hok
      exact hok ▸ coherent_bundled
    · simp only [Requirements.load, bind_ok_iff, Attempt.within, mapError_ok_iff] at hok
      obtain ⟨named, -, hok⟩ := hok
      exact coherent_of_attemptNames hok
  · simp only [Requirements.ofText, bind_ok_iff] at hok
    obtain ⟨named, -, hok⟩ := hok
    exact coherent_of_attemptNames hok

/-! ## What coherence says about the rules -/

namespace Coherent

variable (h : r.Coherent)
include h

/-- The owner of a category is the feature it is exclusive to. -/
theorem owner?_eq_some_iff : r.owner? category = some f ↔ category ∈ (r.rule f).exclusive := by
  rw [owner?, Option.map_eq_some_iff]
  simp only [find?_key_eq_some_iff h.nodup, mem_exclusives]
  constructor
  · rintro ⟨⟨_, _⟩, ⟨hmem, rfl⟩, rfl⟩
    exact hmem
  · intro hmem
    exact ⟨(category, f), ⟨hmem, rfl⟩, rfl⟩

/-- A category is exclusive to one feature at most. -/
theorem eq_of_exclusive (hf : category ∈ (r.rule f).exclusive)
    (hg : category ∈ (r.rule g).exclusive) : f = g := by
  rw [← h.owner?_eq_some_iff] at hf hg
  exact Option.some.inj (hf.symm.trans hg)

/-- The rule of a feature lists what is exclusive to it once. -/
theorem nodup_exclusive (f : Feature) : (r.rule f).exclusive.Nodup := by
  have hnodup := h.nodup
  rw [exclusives, List.map_flatMap, List.nodup_flatMap] at hnodup
  have hf := hnodup.1 f (Feature.mem_all f)
  rw [List.map_map] at hf
  exact hf.of_map _

/-- A category whose owner is not among some features is not required for them. -/
theorem not_mem_required {features : List Feature} (howner : category ∈ (r.rule f).exclusive)
    (hf : f ∉ features) : category ∉ (r.required features).elements := by
  rw [← h.owner?_eq_some_iff] at howner
  intro hrequired
  rcases mem_required.1 hrequired with halways | ⟨g, hg, hrequired⟩
  · rw [h.always_free category halways] at howner
    cases howner
  · have hown := h.required_own (category, g) (mem_requirements.2 hrequired) f howner
    exact hf (hown ▸ hg)

end Coherent

end CapacityExpansion.Requirements
