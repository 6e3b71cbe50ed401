import CapacityExpansion.Proofs.Requirements.Coherence
import Mathlib.Data.List.Perm.Basic
import Mathlib.Data.Set.List

/-!
# Requirements which are accepted

Requirements are read from names and can be written back by name, with the
features in their order. Reading undoes writing: a table of names is read as
certain requirements if and only if these are coherent and are written as the
table, but for the order of the features in it (`ofNames_ok_iff`). So nothing of
a table is lost, and the order of its entries does not matter.

Which tables are accepted can be said of the names alone (`Named.Acceptable`):
they are known, every feature has an entry, and categories which are exclusive
are listed once and required by nobody else.

* `byName`: requirements by name;
* `ofNames_ok_iff`: what a table is read as;
* `acceptable_iff_coherent`: coherence in terms of names;
* `ofNames_accepts_iff`: the tables which are accepted.
-/

namespace CapacityExpansion

variable {c : Category} {f : Feature} {name : String}

theorem Category.ofName?_eq_some_iff : Category.ofName? name = some c ↔ c.name = name := by
  refine ⟨fun h => ?_, fun h => h ▸ Category.ofName?_name c⟩
  have hname := List.find?_some h
  rwa [beq_iff_eq] at hname

theorem Feature.ofName?_eq_some_iff : Feature.ofName? name = some f ↔ f.name = name := by
  refine ⟨fun h => ?_, fun h => h ▸ Feature.ofName?_name f⟩
  have hname := List.find?_some h
  rwa [beq_iff_eq] at hname

theorem Category.injective_name : Function.Injective Category.name := fun _ _ => name_injective

theorem Feature.injective_name : Function.Injective Feature.name := fun f _ h =>
  Option.some.inj ((ofName?_name f).symm.trans (ofName?_eq_some_iff.2 h.symm))

namespace Requirements

/-- A rule by name. -/
def ruleByName (rule : FeatureRule) : NamedRule where
  required := rule.required.map Category.name
  exclusive := rule.exclusive.map Category.name

/-- A feature and its rule by name. -/
def entryByName (p : Feature × FeatureRule) : String × NamedRule := (p.1.name, ruleByName p.2)

/-- Every feature with its rule, in feature order. -/
def rules (r : Requirements) : List (Feature × FeatureRule) :=
  Feature.all.map fun f => (f, r.rule f)

/-- Requirements by name, the features in their order. -/
def byName (r : Requirements) : Named where
  always := r.always.map Category.name
  features := r.rules.map entryByName

/-- The names are those of categories and features, every feature has an entry, and categories which
    are exclusive to a feature are listed once and are not required without it. -/
structure Named.Acceptable (named : Named) : Prop where
  always_known : ∀ name ∈ named.always, ∃ c : Category, c.name = name
  feature_known : ∀ entry ∈ named.features, ∃ f : Feature, f.name = entry.1
  required_known : ∀ entry ∈ named.features, ∀ name ∈ entry.2.required,
    ∃ c : Category, c.name = name
  exclusive_known : ∀ entry ∈ named.features, ∀ name ∈ entry.2.exclusive,
    ∃ c : Category, c.name = name
  complete : ∀ f : Feature, f.name ∈ named.features.map Prod.fst
  /-- The exclusive categories of all entries together are listed once. -/
  nodup_exclusive : (named.features.flatMap fun entry => entry.2.exclusive).Nodup
  always_free : ∀ name ∈ named.always, ∀ entry ∈ named.features, name ∉ entry.2.exclusive
  /-- What a feature requires is exclusive to no other one. -/
  required_own : ∀ entry ∈ named.features, ∀ other ∈ named.features,
    ∀ name ∈ entry.2.required, name ∈ other.2.exclusive → other.1 = entry.1

variable {r : Requirements} {named : Named} {names : List String} {categories : List Category}
  {entry : String × NamedRule} {p : Feature × FeatureRule} {given : List (Feature × FeatureRule)}

/-! ## Names and what they stand for -/

theorem injective_entryByName : Function.Injective entryByName := by
  rintro ⟨f, required, exclusive⟩ ⟨g, required', exclusive'⟩ h
  simp only [entryByName, ruleByName, Prod.mk.injEq, NamedRule.mk.injEq] at h
  obtain ⟨hname, hrequired, hexclusive⟩ := h
  rw [Feature.injective_name hname, List.map_injective_iff.2 Category.injective_name hrequired,
    List.map_injective_iff.2 Category.injective_name hexclusive]

/-- Names which are known are the names of something. -/
theorem exists_map_eq_of_forall {α β : Type} {f : α → β} {l : List β} (h : ∀ b ∈ l, ∃ a, f a = b) :
    ∃ m : List α, m.map f = l := by
  have hrange : l ∈ Set.range (List.map f) := by
    rw [Set.range_list_map]
    exact h
  exact hrange

/-- Categories are read from names which are theirs. -/
theorem lookUpCategories_ok_iff {problem : String → Problem} :
    lookUpCategories problem names = .ok categories ↔ categories.map Category.name = names := by
  rw [lookUpCategories, mapM_ok_iff, ← List.forall₂_eq_eq_eq, List.forall₂_map_left_iff]
  refine ⟨fun h => (h.imp fun name c hc => ?_).flip, fun h => (h.imp fun c name hc => ?_).flip⟩
  · split at hc
    · next hname =>
      rw [Except.ok.inj hc] at hname
      exact Category.ofName?_eq_some_iff.1 hname
    · cases hc
  · have hname : Category.ofName? name = some c := Category.ofName?_eq_some_iff.2 hc
    simp only [flip, hname]

theorem lookUpRule_ok_iff : lookUpRule entry = .ok p ↔ entryByName p = entry := by
  obtain ⟨name, required, exclusive⟩ := entry
  obtain ⟨f, rule⟩ := p
  rw [lookUpRule]
  cases hname : Feature.ofName? name with
  | none =>
    have hne : f.name ≠ name := fun h => by
      rw [Feature.ofName?_eq_some_iff.2 h] at hname
      cases hname
    simp [entryByName, hne]
  | some g =>
    obtain rfl := Feature.ofName?_eq_some_iff.1 hname
    simp only [bind_ok_iff, lookUpCategories_ok_iff, pure_ok_iff, entryByName, ruleByName,
      Prod.mk.injEq, NamedRule.mk.injEq]
    constructor
    · rintro ⟨required, rfl, exclusive, rfl, rfl, rfl⟩
      exact ⟨rfl, rfl, rfl⟩
    · rintro ⟨hname, rfl, rfl⟩
      exact ⟨rule.required, rfl, rule.exclusive, rfl, (Feature.injective_name hname).symm, rfl⟩

/-! ## The rules which are given -/

theorem addRule_ok_iff {before after : List (Feature × FeatureRule)} :
    addRule before entry = .ok after ↔
      ∃ p, entryByName p = entry ∧ p.1 ∉ before.map Prod.fst ∧ before ++ [p] = after := by
  rw [addRule, bind_ok_iff]
  simp only [seq_ok_iff, lookUpRule_ok_iff, require_ok_iff, pure_ok_iff]

/-- Entries are read one by one as the rules which they are, of different features. -/
theorem foldlM_addRule_ok_iff {entries : List (String × NamedRule)}
    {before after : List (Feature × FeatureRule)} (hbefore : (before.map Prod.fst).Nodup) :
    entries.foldlM addRule before = .ok after ↔
      ∃ new, new.map entryByName = entries ∧ before ++ new = after ∧
        (after.map Prod.fst).Nodup := by
  induction entries generalizing before with
  | nil =>
    simp only [List.foldlM_nil, pure_ok_iff, List.map_eq_nil_iff]
    constructor
    · rintro rfl
      exact ⟨[], rfl, List.append_nil _, hbefore⟩
    · rintro ⟨_, rfl, rfl, -⟩
      exact (List.append_nil _).symm
  | cons entry rest ih =>
    simp only [List.foldlM_cons, bind_ok_iff, addRule_ok_iff]
    constructor
    · rintro ⟨_, ⟨p, rfl, hnew, rfl⟩, hrest⟩
      have hnodup : ((before ++ [p]).map Prod.fst).Nodup := by
        rw [List.map_append, List.nodup_append_comm]
        exact List.nodup_cons.2 ⟨hnew, hbefore⟩
      obtain ⟨new, rfl, rfl, hafter⟩ := (ih hnodup).1 hrest
      exact ⟨p :: new, rfl, List.append_cons _ _ _, hafter⟩
    · rintro ⟨new, hnew, rfl, hafter⟩
      obtain ⟨p, new, rfl, rfl, rfl⟩ := List.map_eq_cons_iff.1 hnew
      rw [List.append_cons] at hafter
      -- What is read up to `p` is the first part of rules of different features.
      have hnodup : ((before ++ [p]).map Prod.fst).Nodup := by
        rw [List.map_append] at hafter
        exact hafter.of_append_left
      refine ⟨before ++ [p], ⟨p, rfl, ?_, rfl⟩,
        (ih hnodup).2 ⟨new, rfl, List.append_cons _ _ _ ▸ rfl, List.append_cons _ _ _ ▸ hafter⟩⟩
      rw [List.map_append, List.nodup_append_comm] at hnodup
      exact (List.nodup_cons.1 hnodup).1

theorem isSome_ruleAmong_iff : (ruleAmong given f).isSome ↔ f ∈ given.map Prod.fst := by
  rw [ruleAmong, Option.isSome_map, Option.isSome_iff_ne_none, Ne, find?_key_eq_none_iff, not_not]

theorem ruleAmong_eq_some_iff (hnodup : (given.map Prod.fst).Nodup) {rule : FeatureRule} :
    ruleAmong given f = some rule ↔ (f, rule) ∈ given := by
  rw [ruleAmong, Option.map_eq_some_iff]
  simp only [find?_key_eq_some_iff hnodup]
  constructor
  · rintro ⟨p, ⟨hmem, rfl⟩, rfl⟩
    exact hmem
  · exact fun hmem => ⟨_, ⟨hmem, rfl⟩, rfl⟩

theorem map_fst_rules : r.rules.map Prod.fst = Feature.all := by
  rw [rules, List.map_map]
  exact List.map_id _

theorem mem_rules : p ∈ r.rules ↔ p.2 = r.rule p.1 := by
  rw [rules, List.mem_map]
  constructor
  · rintro ⟨f, -, rfl⟩
    rfl
  · intro h
    exact ⟨p.1, Feature.mem_all _, by rw [← h]⟩

/-- Rules given for every feature, each once, are those of the requirements made of them. -/
theorem perm_rules (hnodup : (given.map Prod.fst).Nodup)
    (hall : ∀ f, f ∈ given.map Prod.fst) (hrule : ∀ f, r.rule f = (ruleAmong given f).getD {}) :
    given.Perm r.rules := by
  have hrules : (r.rules.map Prod.fst).Nodup := map_fst_rules ▸ Feature.nodup_all
  refine (List.perm_ext_iff_of_nodup hnodup.of_map hrules.of_map).2 fun p => ?_
  obtain ⟨rule, hgiven⟩ := Option.isSome_iff_exists.1 (isSome_ruleAmong_iff.2 (hall p.1))
  rw [mem_rules, hrule, hgiven, Option.getD_some, ← ruleAmong_eq_some_iff hnodup, hgiven,
    Option.some.injEq, eq_comm]

/-- Rules given in any order are found under their features. -/
theorem getD_ruleAmong (hperm : given.Perm r.rules) (f : Feature) :
    (ruleAmong given f).getD {} = r.rule f := by
  have hnodup : (given.map Prod.fst).Nodup := by
    rw [(hperm.map Prod.fst).nodup_iff, map_fst_rules]
    exact Feature.nodup_all
  have hmem : (f, r.rule f) ∈ r.rules := mem_rules.2 rfl
  rw [(ruleAmong_eq_some_iff hnodup).2 (hperm.mem_iff.2 hmem), Option.getD_some]

/-! ## Reading undoes writing -/

/-- Entries which are rules by name in some order are read as these rules. -/
theorem exists_given_of_perm {entries : List (String × NamedRule)}
    (hperm : entries.Perm r.byName.features) :
    ∃ given : List (Feature × FeatureRule),
      given.map entryByName = entries ∧ given.Perm r.rules := by
  obtain ⟨given, rfl⟩ : ∃ given : List (Feature × FeatureRule), given.map entryByName = entries :=
    exists_map_eq_of_forall fun entry hentry =>
      let ⟨p, _, e⟩ := List.mem_map.1 (hperm.mem_iff.1 hentry)
      ⟨p, e⟩
  exact ⟨given, rfl, (List.map_perm_map_iff injective_entryByName).1 hperm⟩

/-- A table is read as the coherent requirements which are written as it, but for the order of its
    entries. -/
theorem ofNames_ok_iff : ofNames named = .ok r ↔
    r.byName.always = named.always ∧ r.byName.features.Perm named.features ∧ r.Coherent := by
  have hnil : (([] : List (Feature × FeatureRule)).map Prod.fst).Nodup := List.nodup_nil
  simp only [ofNames, bind_ok_iff, Unique.exists_iff, PUnit.default_eq_unit,
    lookUpCategories_ok_iff, foldlM_addRule_ok_iff hnil, forM_ok_iff, require_ok_iff, pure_ok_iff,
    isSome_ruleAmong_iff, List.nil_append]
  constructor
  · rintro ⟨always, halways, given, ⟨_, hentries, rfl, hnodup⟩, hall, hcoherent, rfl⟩
    refine ⟨halways, ?_, checkCoherent_ok_iff.1 hcoherent⟩
    rw [← hentries]
    exact ((perm_rules hnodup (fun f => hall f (Feature.mem_all f)) fun _ => rfl).map _).symm
  · rintro ⟨halways, hperm, hcoherent⟩
    -- The entries are the rules in some order, and looking rules up by feature undoes the order.
    obtain ⟨given, hentries, hgiven⟩ := exists_given_of_perm hperm.symm
    have hkeys : (given.map Prod.fst).Perm Feature.all := map_fst_rules ▸ hgiven.map Prod.fst
    have hr : ({ always := r.always, rule := fun f => (ruleAmong given f).getD {} } :
        Requirements) = r := by
      simp only [getD_ruleAmong hgiven]
    refine ⟨r.always, halways, given, ⟨given, hentries, rfl, ?_⟩, fun f _ => ?_, ?_, hr⟩
    · exact hkeys.nodup_iff.2 Feature.nodup_all
    · exact hkeys.mem_iff.2 (Feature.mem_all f)
    · rw [hr]
      exact checkCoherent_ok_iff.2 hcoherent

/-! ## Coherence by name -/

theorem map_fst_exclusives :
    r.exclusives.map Prod.fst = r.rules.flatMap fun p => p.2.exclusive := by
  rw [exclusives, rules, List.map_flatMap, List.flatMap_map]
  simp only [List.map_map]
  exact List.flatMap_congr fun f _ => List.map_id _

theorem owner?_eq_none_iff : r.owner? c = none ↔ ∀ f, c ∉ (r.rule f).exclusive := by
  rw [owner?, Option.map_eq_none_iff, find?_key_eq_none_iff, List.mem_map, not_exists]
  simp only [not_and, mem_exclusives]
  exact ⟨fun h f hf => h (c, f) hf rfl, fun h p hp e => h p.2 (e ▸ hp)⟩

/-- Coherence is about which categories the rules list as exclusive. -/
theorem coherent_iff : r.Coherent ↔ (r.rules.flatMap fun p => p.2.exclusive).Nodup ∧
    (∀ c ∈ r.always, ∀ f, c ∉ (r.rule f).exclusive) ∧
    ∀ f g c, c ∈ (r.rule f).required → c ∈ (r.rule g).exclusive → g = f := by
  rw [← map_fst_exclusives]
  constructor
  · intro h
    refine ⟨h.nodup, fun c hc => owner?_eq_none_iff.1 (h.always_free c hc), fun f g c hf hg => ?_⟩
    exact h.required_own (c, f) (mem_requirements.2 hf) g (h.owner?_eq_some_iff.2 hg)
  · rintro ⟨hnodup, halways, hown⟩
    refine ⟨hnodup, fun c hc => owner?_eq_none_iff.2 (halways c hc), fun p hp owner howner => ?_⟩
    rw [owner?, Option.map_eq_some_iff] at howner
    obtain ⟨q, hq, rfl⟩ := howner
    obtain ⟨hmem, hkey⟩ := (find?_key_eq_some_iff hnodup).1 hq
    exact hown p.2 q.2 p.1 (mem_requirements.1 hp) (hkey ▸ mem_exclusives.1 hmem)

/-- What holds of the entries of a table holds of the rules by name which it has. -/
theorem forall_entries_iff (hfeatures : r.byName.features.Perm named.features)
    {P : String × NamedRule → Prop} :
    (∀ entry ∈ named.features, P entry) ↔ ∀ f, P (f.name, ruleByName (r.rule f)) := by
  have hmem : ∀ entry, entry ∈ named.features ↔ ∃ f, (f.name, ruleByName (r.rule f)) = entry := by
    intro entry
    rw [← hfeatures.mem_iff]
    simp [byName, rules, entryByName, Feature.mem_all]
  simp only [hmem, forall_exists_index, forall_apply_eq_imp_iff]

/-- The requirements which a table stands for are coherent if and only if its names say so. -/
theorem acceptable_iff_coherent (halways : r.byName.always = named.always)
    (hfeatures : r.byName.features.Perm named.features) : named.Acceptable ↔ r.Coherent := by
  have hall := fun {P} => forall_entries_iff (P := P) hfeatures
  have hexclusive : (named.features.flatMap fun entry => entry.2.exclusive).Nodup ↔
      (r.rules.flatMap fun p => p.2.exclusive).Nodup := by
    rw [← (hfeatures.flatMap_right _).nodup_iff, byName, List.flatMap_map]
    simp only [entryByName, ruleByName]
    rw [← List.map_flatMap, List.nodup_map_iff Category.injective_name]
  have hname : ∀ {c} {l : List Category}, c.name ∈ l.map Category.name ↔ c ∈ l :=
    List.mem_map_of_injective Category.injective_name
  have hfree : (∀ name ∈ named.always, ∀ entry ∈ named.features, name ∉ entry.2.exclusive) ↔
      ∀ c ∈ r.always, ∀ f, c ∉ (r.rule f).exclusive := by
    simp only [← halways, hall, byName, ruleByName, hname, List.forall_mem_map]
  have hown : (∀ entry ∈ named.features, ∀ other ∈ named.features, ∀ name ∈ entry.2.required,
      name ∈ other.2.exclusive → other.1 = entry.1) ↔
      ∀ f g c, c ∈ (r.rule f).required → c ∈ (r.rule g).exclusive → g = f := by
    simp only [hall, ruleByName, hname, List.forall_mem_map, Feature.injective_name.eq_iff]
  have hnamed : ∀ l : List Category, ∀ name ∈ l.map Category.name, ∃ c : Category, c.name = name :=
    fun l name h =>
      let ⟨c, _, e⟩ := List.mem_map.1 h
      ⟨c, e⟩
  -- What is left is about names, and the table has only names of features and categories.
  have hcomplete : ∀ f : Feature, f.name ∈ named.features.map Prod.fst := fun f => by
    rw [← (hfeatures.map Prod.fst).mem_iff, byName, List.map_map]
    exact List.mem_map_of_mem (mem_rules.2 rfl : (f, r.rule f) ∈ r.rules)
  rw [coherent_iff, ← hexclusive, ← hfree, ← hown]
  refine ⟨fun h => ⟨h.nodup_exclusive, h.always_free, h.required_own⟩, fun h => ?_⟩
  exact {
    always_known := halways ▸ hnamed r.always
    feature_known := hall.2 fun f => ⟨f, rfl⟩
    required_known := hall.2 fun f => hnamed _
    exclusive_known := hall.2 fun f => hnamed _
    complete := hcomplete
    nodup_exclusive := h.1
    always_free := h.2.1
    required_own := h.2.2 }

/-! ## The tables which are accepted -/

/-- The names of a table which knows them all stand for requirements. -/
theorem exists_byName (hnodup : (named.features.map Prod.fst).Nodup) (h : named.Acceptable) :
    ∃ r : Requirements, r.byName.always = named.always ∧
      r.byName.features.Perm named.features := by
  obtain ⟨always, halways⟩ := exists_map_eq_of_forall h.always_known
  have hentry : ∀ entry ∈ named.features, ∃ p, entryByName p = entry := by
    intro entry hentry
    obtain ⟨f, hf⟩ := h.feature_known entry hentry
    obtain ⟨required, hrequired⟩ := exists_map_eq_of_forall (h.required_known entry hentry)
    obtain ⟨exclusive, hexclusive⟩ := exists_map_eq_of_forall (h.exclusive_known entry hentry)
    exact ⟨(f, { required, exclusive }), by rw [entryByName, ruleByName, hf, hrequired, hexclusive]⟩
  -- So the entries are rules by name, of different features and of all features.
  obtain ⟨given, hgiven⟩ := exists_map_eq_of_forall hentry
  have hkeys : named.features.map Prod.fst = (given.map Prod.fst).map Feature.name := by
    rw [← hgiven, List.map_map, List.map_map]
    rfl
  have hall : ∀ f, f ∈ given.map Prod.fst := fun f => by
    have hf := h.complete f
    rwa [hkeys, List.mem_map_of_injective Feature.injective_name] at hf
  rw [hkeys, List.nodup_map_iff Feature.injective_name] at hnodup
  refine ⟨{ always, rule := fun f => (ruleAmong given f).getD {} }, halways, ?_⟩
  rw [← hgiven]
  exact ((perm_rules hnodup hall fun _ => rfl).map _).symm

/-- A table whose entries are of different features is accepted if and only if it is acceptable, and
    what it is read as has the categories of the table in their order, the rules in feature order,
    and is the same for any order of the entries. -/
theorem ofNames_accepts_iff (named : Named) :
    ((∃ r, ofNames named = .ok r) ↔ (named.features.map Prod.fst).Nodup ∧ named.Acceptable) ∧
      ∀ r, ofNames named = .ok r →
        r.always.map Category.name = named.always ∧
        (Feature.all.map fun f => (f.name, ruleByName (r.rule f))).Perm named.features ∧
        ∀ features, features.Perm named.features → ofNames { named with features } = .ok r := by
  refine ⟨⟨?_, ?_⟩, fun r hr => ?_⟩
  · rintro ⟨r, hr⟩
    obtain ⟨halways, hfeatures, hcoherent⟩ := ofNames_ok_iff.1 hr
    refine ⟨?_, (acceptable_iff_coherent halways hfeatures).2 hcoherent⟩
    rw [← (hfeatures.map Prod.fst).nodup_iff]
    have hkeys : r.byName.features.map Prod.fst = Feature.all.map Feature.name := by
      rw [byName, rules, List.map_map, List.map_map]
      rfl
    rw [hkeys, List.nodup_map_iff Feature.injective_name]
    exact Feature.nodup_all
  · rintro ⟨hnodup, h⟩
    obtain ⟨r, halways, hfeatures⟩ := exists_byName hnodup h
    exact ⟨r, ofNames_ok_iff.2
      ⟨halways, hfeatures, (acceptable_iff_coherent halways hfeatures).1 h⟩⟩
  · obtain ⟨halways, hfeatures, hcoherent⟩ := ofNames_ok_iff.1 hr
    refine ⟨halways, ?_, fun features hperm => ?_⟩
    · rwa [byName, rules, List.map_map] at hfeatures
    · exact ofNames_ok_iff.2 ⟨halways, hfeatures.trans hperm.symm, hcoherent⟩

/-- The bundled requirements are read again, also with their features in the opposite order. -/
theorem ofNames_bundled_reverse :
    ofNames bundled.byName = .ok bundled ∧
      ofNames { bundled.byName with features := bundled.byName.features.reverse } =
        .ok bundled := by
  have hread : ofNames bundled.byName = .ok bundled :=
    ofNames_ok_iff.2 ⟨rfl, .refl _, coherent_bundled⟩
  exact ⟨hread, ((ofNames_accepts_iff bundled.byName).2 bundled hread).2.2 _
    (List.reverse_perm _)⟩

end Requirements

end CapacityExpansion
